import TileAtlas.Metadata.Diff
import TileAtlas.Proofs.Metadata.Lookup
import TileAtlas.Proofs.Order.Sort
import Mathlib.Data.String.Basic

/-!
# Merging a difference of metadata

The changes between two metadata of texts come in strictly ascending order of names and leave the
reserved names out.  Merged into metadata that has the values of the base under all other names,
they give the values of the target, and no policy refuses them.
-/

namespace TileAtlas

theorem Cell.le_text_eq_decide (s t : String) : (Cell.text s).le (.text t) = decide (s ≤ t) := by
  rw [Cell.le_text, Bool.eq_iff_iff, decide_eq_true_iff, ← compare_le_iff_le,
    Ordering.isLE_iff_ne_gt]

namespace Metadata

variable {base target current : Metadata} {name : String} {change : MetadataChange}

theorem get?_user (m : Metadata) (name : String) :
    m.user.get? (.text name) =
      if isReserved (.text name) then none else m.get? (.text name) := by
  refine (get?_filter m (fun name => !isReserved name) name).trans ?_
  cases isReserved (.text name) <;> rfl

theorem name_of_changeOf? (h : base.changeOf? target (.text name) = some change) :
    change.name = .text name := by
  unfold changeOf? at h
  split at h
  · obtain rfl := Option.some.inj h
    rfl
  · obtain rfl := Option.some.inj h
    rfl
  · split at h
    · cases h
    · obtain rfl := Option.some.inj h
      rfl

/-- Whether every value under a text name is a text. -/
def HasTexts (m : Metadata) : Prop :=
  ∀ (name : String) value, m.get? (.text name) = some value → ∃ text, value = .text text

theorem hasTexts_ofTexts (entries : List (String × String)) : (ofTexts entries).HasTexts := by
  intro name value hvalue
  rw [get?_ofTexts] at hvalue
  obtain ⟨text, -, rfl⟩ := Option.map_eq_some_iff.1 hvalue
  exact ⟨text, rfl⟩

theorem HasTexts.user {m : Metadata} (h : m.HasTexts) : m.user.HasTexts := by
  intro name value hvalue
  rw [get?_user] at hvalue
  split at hvalue
  · cases hvalue
  · exact h name value hvalue

theorem get?_eq_of_changeOf?_none (htarget : target.HasTexts)
    (h : base.changeOf? target (.text name) = none) :
    base.get? (.text name) = target.get? (.text name) := by
  unfold changeOf? at h
  split at h
  · cases h
  · cases h
  next old value hold hvalue =>
    obtain ⟨text, rfl⟩ := htarget name value hvalue
    split at h
    next hsame =>
      rw [Cell.same_text_right, decide_eq_true_iff] at hsame
      rw [hold, hvalue, hsame]
    · cases h

/-- A change is taken or passed over where the value of its name is that of the base, and the value
is that of the target then. -/
theorem resolve_changeOf? (policy : MergePolicy) (hreserved : isReserved (.text name) = false)
    (hcurrent : current.get? (.text name) = base.get? (.text name))
    (h : base.changeOf? target (.text name) = some change) :
    ∃ taken, change.resolve policy (current.get? change.name) = .ok taken ∧ ∀ other,
      (if taken then change.applyTo current else current).get? (.text other) =
        if other = name then target.get? (.text name) else current.get? (.text other) := by
  unfold changeOf? at h
  split at h
  next hnone =>
    obtain rfl := Option.some.inj h
    cases hold : current.get? (.text name) with
    | none =>
        refine ⟨false, by simp [MetadataChange.resolve, MetadataChange.name, hreserved, hold], ?_⟩
        intro other
        simp only [Bool.false_eq_true, if_false]
        split
        next hother => rw [hother, hnone, hold]
        · rfl
    | some old =>
        refine ⟨true, by simp [MetadataChange.resolve, MetadataChange.name, hreserved, hold], ?_⟩
        intro other
        simp only [if_true, MetadataChange.applyTo, get?_erase, hnone]
  next value hnone hvalue =>
    obtain rfl := Option.some.inj h
    refine ⟨true, ?_, fun other => ?_⟩
    · simp [MetadataChange.resolve, MetadataChange.name, hreserved, hcurrent, hnone]
    · simp only [if_true, MetadataChange.applyTo, get?_set, hvalue]
  next old value hold hvalue =>
    split at h
    · cases h
    · obtain rfl := Option.some.inj h
      refine ⟨true, ?_, fun other => ?_⟩
      · simp [MetadataChange.resolve, MetadataChange.name, hreserved]
      · simp only [if_true, MetadataChange.applyTo, get?_set, hvalue]

/-- The changes of the given names. -/
def changesBetween (base target : Metadata) (names : List String) : List MetadataChange :=
  names.filterMap fun name => base.changeOf? target (.text name)

theorem merge_changesBetween (policy : MergePolicy) (htarget : target.HasTexts)
    {names : List String} (hnames : names.Pairwise (· ≠ ·))
    (hreserved : ∀ name ∈ names, isReserved (.text name) = false)
    (hcurrent : ∀ name ∈ names, current.get? (.text name) = base.get? (.text name)) :
    ∃ m, (current.merge policy (base.changesBetween target names)).2 = .ok m ∧ ∀ name : String,
      m.get? (.text name) =
        if name ∈ names then target.get? (.text name) else current.get? (.text name) := by
  -- the names that are left have the values of the base after each change
  induction names generalizing current with
  | nil => exact ⟨current, rfl, fun name => by simp⟩
  | cons first rest ih =>
      obtain ⟨hfirst, hrest⟩ := List.pairwise_cons.1 hnames
      have hrestReserved : ∀ name ∈ rest, isReserved (.text name) = false := fun name hname =>
        hreserved name (List.mem_cons_of_mem _ hname)
      cases hchange : base.changeOf? target (.text first) with
      | none =>
          obtain ⟨m, hm, hget⟩ := ih hrest hrestReserved fun name hname =>
            hcurrent name (List.mem_cons_of_mem _ hname)
          refine ⟨m, by simpa only [changesBetween, List.filterMap_cons, hchange] using hm,
            fun name => ?_⟩
          rw [hget name]
          by_cases hname : name = first
          · subst hname
            have hkept := hcurrent name (List.mem_cons_self ..)
            simp [hkept, get?_eq_of_changeOf?_none htarget hchange]
          · simp [hname]
      | some change =>
          obtain ⟨taken, hresolve, hnext⟩ := resolve_changeOf? policy
            (hreserved first (List.mem_cons_self ..)) (hcurrent first (List.mem_cons_self ..))
            hchange
          have hkept : ∀ name ∈ rest, (if taken then change.applyTo current else current).get?
              (.text name) = base.get? (.text name) := by
            intro name hname
            rw [hnext name, if_neg (hfirst name hname).symm]
            exact hcurrent name (List.mem_cons_of_mem _ hname)
          obtain ⟨m, hm, hget⟩ := ih hrest hrestReserved hkept
          refine ⟨m, ?_, fun name => ?_⟩
          · simp only [changesBetween, List.filterMap_cons, hchange, merge, hresolve] at hm ⊢
            exact hm
          · rw [hget name, hnext name]
            by_cases hname : name = first
            · simp [hname]
            · simp [hname]

/-! ### The changes between two metadata -/

theorem isText_of_changeOf? (htarget : target.HasTexts)
    (h : base.changeOf? target (.text name) = some change) : change.IsText := by
  refine ⟨name, ?_⟩
  unfold changeOf? at h
  split at h
  · exact .inl (Option.some.inj h).symm
  next value _ hvalue =>
    obtain ⟨text, rfl⟩ := htarget name value hvalue
    exact .inr ⟨text, .inl (Option.some.inj h).symm⟩
  next old value _ hvalue =>
    obtain ⟨text, rfl⟩ := htarget name value hvalue
    split at h
    · cases h
    · exact .inr ⟨text, .inr (Option.some.inj h).symm⟩

/-- Whether changes are made of texts, and their names are not reserved and ascend. -/
structure Listed (changes : List MetadataChange) : Prop where
  texts : ∀ change ∈ changes, change.IsText
  unreserved : ∀ change ∈ changes, isReserved change.name = false
  ascending : changes.Pairwise fun a b => a.name.display < b.name.display

theorem Listed.distinct {changes : List MetadataChange} (h : Listed changes) :
    changes.Pairwise fun a b => a.name ≠ b.name :=
  h.ascending.imp fun hlt heq => hlt.ne (congrArg Cell.display heq)

theorem listed_changesBetween (base : Metadata) (htarget : target.HasTexts) {names : List String}
    (hnames : names.Pairwise (· < ·))
    (hreserved : ∀ name ∈ names, isReserved (.text name) = false) :
    Listed (base.changesBetween target names) where
  texts change hchange := by
    obtain ⟨name, -, hchange⟩ := List.mem_filterMap.1 hchange
    exact isText_of_changeOf? htarget hchange
  unreserved change hchange := by
    obtain ⟨name, hname, hchange⟩ := List.mem_filterMap.1 hchange
    rw [name_of_changeOf? hchange]
    exact hreserved name hname
  ascending := by
    refine List.pairwise_filterMap.2 (hnames.imp fun hab change hchange other hother => ?_)
    rw [name_of_changeOf? hchange, name_of_changeOf? hother]
    exact hab

theorem sortNames?_texts (names : List String) :
    sortNames? (names.map .text) =
      some ((sortBy (fun a b => decide (a ≤ b)) names).map .text) := by
  have hsort : sortBy Cell.le (names.map .text) =
      (sortBy (fun a b => decide (a ≤ b)) names).map .text := by
    simp only [sortBy_map, Cell.le_text_eq_decide]
  rw [← hsort]
  match names with
  | [] => rfl
  | [name] => rfl
  | first :: second :: rest =>
    have hall : ((second :: rest).map Cell.text).all (Cell.text first).comparable = true :=
      List.all_eq_true.2 fun c hc => by
        obtain ⟨name, -, rfl⟩ := List.mem_map.1 hc
        rfl
    simp only [List.map_cons] at hall ⊢
    simp only [sortNames?, hall, if_true]

theorem user_ofTexts (entries : List (String × String)) :
    (ofTexts entries).user =
      ofTexts (entries.filter fun entry => !isReserved (.text entry.1)) := by
  simp only [user, ofTexts, List.filter_map]
  rfl

theorem lookup_eq_none_iff {entries : List (String × String)} {name : String} :
    entries.lookup name = none ↔ ∀ entry ∈ entries, entry.1 ≠ name := by
  induction entries with
  | nil => simp
  | cons entry rest ih =>
      obtain ⟨key, value⟩ := entry
      by_cases hkey : key = name
      · simp [hkey]
      · simp [List.lookup_cons, beq_false_of_ne (Ne.symm hkey), ih, hkey]

/-- The names of either of two lists of texts, each of them once. -/
theorem jointNames_ofTexts {base target : List (String × String)}
    (hbase : base.Pairwise fun a b => a.1 ≠ b.1) (htarget : target.Pairwise fun a b => a.1 ≠ b.1) :
    ∃ names : List String, (ofTexts base).jointNames (ofTexts target) = names.map .text ∧
      names.Pairwise (· ≠ ·) ∧
      ∀ name, name ∈ names ↔
        (∃ entry ∈ base, entry.1 = name) ∨ ∃ entry ∈ target, entry.1 = name := by
  have hcontains (name : String) : (!(ofTexts base).contains (.text name)) = true ↔
      ∀ entry ∈ base, entry.1 ≠ name := by
    rw [← lookup_eq_none_iff, contains, get?_ofTexts]
    cases base.lookup name <;> simp
  refine ⟨base.map (·.1) ++ (target.map (·.1)).filter fun name =>
    !(ofTexts base).contains (.text name), ?_, ?_, fun name => ?_⟩
  · simp only [jointNames, names, ofTexts, List.map_map, List.map_append, List.filter_map]
    rfl
  · refine List.pairwise_append.2 ⟨List.pairwise_map.2 hbase,
      (List.pairwise_map.2 htarget).filter _, fun a ha b hb => ?_⟩
    obtain ⟨entry, hentry, rfl⟩ := List.mem_map.1 ha
    exact (hcontains b).1 (List.mem_filter.1 hb).2 entry hentry
  · rw [List.mem_append, List.mem_filter, hcontains, List.mem_map, List.mem_map]
    refine ⟨fun h => h.imp_right And.left, fun h => ?_⟩
    by_cases hname : ∃ entry ∈ base, entry.1 = name
    · exact .inl hname
    · exact .inr ⟨h.resolve_left hname, fun entry hentry heq => hname ⟨entry, hentry, heq⟩⟩

/-- These names are put in order, since all of them are texts. -/
theorem sortedNames_ofTexts {base target : List (String × String)}
    (hbase : base.Pairwise fun a b => a.1 ≠ b.1) (htarget : target.Pairwise fun a b => a.1 ≠ b.1) :
    ∃ names : List String,
      sortNames? ((ofTexts base).jointNames (ofTexts target)) = some (names.map .text) ∧
      names.Pairwise (· < ·) ∧
      ∀ name, name ∈ names ↔
        (∃ entry ∈ base, entry.1 = name) ∨ ∃ entry ∈ target, entry.1 = name := by
  obtain ⟨names, hjoint, hdistinct, hmem⟩ := jointNames_ofTexts hbase htarget
  refine ⟨sortBy (fun a b => decide (a ≤ b)) names, ?_, pairwise_lt_sortBy id hdistinct,
    fun name => (mem_sortBy _).trans (hmem name)⟩
  rw [hjoint, sortNames?_texts]

theorem isSome_get?_user {entries : List (String × String)} {name : String} :
    ((ofTexts entries).user.get? (.text name)).isSome ↔
      ∃ entry ∈ entries.filter (fun entry => !isReserved (.text entry.1)), entry.1 = name := by
  rw [user_ofTexts, get?_ofTexts, Option.isSome_map, Option.isSome_iff_ne_none, ne_eq,
    lookup_eq_none_iff]
  push Not
  rfl

/-- The difference of two metadata of texts consists of the changes of the names that are not
reserved, in ascending order. -/
theorem diff_ofTexts_eq {base target : List (String × String)}
    (hbase : base.Pairwise fun a b => a.1 ≠ b.1) (htarget : target.Pairwise fun a b => a.1 ≠ b.1) :
    ∃ names : List String, (ofTexts base).diff (ofTexts target) =
        .ok ((ofTexts base).user.changesBetween (ofTexts target).user names) ∧
      names.Pairwise (· < ·) ∧
      ∀ name, name ∈ names ↔ ((ofTexts base).user.get? (.text name)).isSome ∨
        ((ofTexts target).user.get? (.text name)).isSome := by
  obtain ⟨names, hnames, hsorted, hmem⟩ :=
    sortedNames_ofTexts (hbase.filter fun entry => !isReserved (.text entry.1))
      (htarget.filter fun entry => !isReserved (.text entry.1))
  refine ⟨names, ?_, hsorted, fun name => ?_⟩
  · simp only [diff, user_ofTexts, hnames, changesBetween, List.filterMap_map]
    rfl
  · rw [hmem, isSome_get?_user, isSome_get?_user]

theorem unreserved_of_isSome {m : Metadata} (h : (m.user.get? (.text name)).isSome) :
    isReserved (.text name) = false := by
  rw [get?_user] at h
  split at h
  · cases h
  next hname => exact Bool.eq_false_iff.2 hname

/-- The difference of two metadata of texts can always be made, and merging it gives the values of
the target to whatever has the values of the base. -/
theorem diff_ofTexts {base target : List (String × String)}
    (hbase : base.Pairwise fun a b => a.1 ≠ b.1) (htarget : target.Pairwise fun a b => a.1 ≠ b.1) :
    ∃ changes, (ofTexts base).diff (ofTexts target) = .ok changes ∧ Listed changes ∧
      ∀ policy (current : Metadata),
        (∀ name : String, isReserved (.text name) = false →
          current.get? (.text name) = (ofTexts base).get? (.text name)) →
        ∃ m, (current.merge policy changes).2 = .ok m ∧ ∀ name : String,
          m.get? (.text name) = if isReserved (.text name) then current.get? (.text name)
            else (ofTexts target).get? (.text name) := by
  obtain ⟨names, hdiff, hsorted, hmem⟩ := diff_ofTexts_eq hbase htarget
  have hreserved : ∀ name ∈ names, isReserved (.text name) = false := fun name hname =>
    ((hmem name).1 hname).elim unreserved_of_isSome unreserved_of_isSome
  have htexts : (ofTexts target).user.HasTexts := (hasTexts_ofTexts target).user
  refine ⟨_, hdiff, listed_changesBetween _ htexts hsorted hreserved,
    fun policy current hcurrent => ?_⟩
  have hshared : ∀ name ∈ names,
      current.get? (.text name) = (ofTexts base).user.get? (.text name) := by
    intro name hname
    rw [get?_user, hreserved name hname, hcurrent name (hreserved name hname)]
    rfl
  obtain ⟨m, hm, hget⟩ := merge_changesBetween policy htexts (hsorted.imp fun hab => hab.ne)
    hreserved hshared
  refine ⟨m, hm, fun name => ?_⟩
  rw [hget name]
  cases hname : isReserved (.text name) with
  | true =>
      rw [if_neg fun hmem => by simp [hreserved name hmem] at hname]
      rfl
  | false =>
      have huser (m : Metadata) : m.user.get? (.text name) = m.get? (.text name) := by
        rw [get?_user, hname]
        rfl
      split
      · exact huser _
      next hother =>
        rw [hmem, not_or, Option.not_isSome_iff_eq_none, Option.not_isSome_iff_eq_none, huser,
          huser] at hother
        rw [hcurrent name hname, hother.1, hother.2]
        rfl

end Metadata

end TileAtlas
