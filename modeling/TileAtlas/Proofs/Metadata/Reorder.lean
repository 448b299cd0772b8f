import TileAtlas.Proofs.Metadata.TextMap

/-!
# The order of changes

Changes of different names do not meet: each of them is refused or not in view of the metadata
before all of them, and settles the value of its own name.  So the order in which they are merged
does not matter, and merging them again finds everything settled.
-/

namespace TileAtlas

variable {policy : MergePolicy} {m : Metadata}

namespace MetadataChange

variable {change other : MetadataChange} {existing : Option Cell} {taken : Bool}

/-- What is under the name of a change once it has been dealt with. -/
def outcome : MetadataChange → Option Cell
  | add _ value | edit _ value => some value
  | remove _ => none

/-- Whether a change is refused in view of some metadata. -/
def Refused (policy : MergePolicy) (m : Metadata) (change : MetadataChange) : Prop :=
  ∃ fault, change.resolve policy (m.get? change.name) = .error fault

/-- The only reason for which a change is refused. -/
theorem conflict_of_resolve {fault : Fault} (h : change.resolve policy existing = .error fault) :
    ∃ name existing incoming, fault = .metadataConflict name existing incoming := by
  unfold resolve at h
  split at h
  · cases h
  · split at h
    · split at h
      · cases h
      · split at h
        · cases h
        · exact ⟨_, _, _, (Except.error.inj h).symm⟩
    · cases h
    · cases h

/-- Whether a change is skipped in view of the value under its name: the name is reserved, the value
that is to be added is there, or there is none that could be removed. -/
def Skipped (existing : Option Cell) (change : MetadataChange) : Prop :=
  isReserved change.name = true ∨ change.action ≠ .edit ∧ existing = change.outcome

instance (existing : Option Cell) (change : MetadataChange) : Decidable (change.Skipped existing) :=
  inferInstanceAs (Decidable (_ ∨ _))

theorem resolve_eq_false_iff (hchange : change.IsText) :
    change.resolve policy existing = .ok false ↔ change.Skipped existing := by
  unfold resolve Skipped
  cases isReserved change.name with
  | true => simp
  | false =>
      obtain ⟨name, rfl | ⟨value, rfl | rfl⟩⟩ := hchange
      · cases existing <;> simp [action, outcome]
      · cases existing with
        | none => simp [outcome]
        | some old =>
            by_cases hold : old = .text value
            · simp [Cell.same_text_right, hold, action, outcome]
            · simp only [Cell.same_text_right, hold, outcome, decide_false, Option.some.injEq,
                Bool.false_eq_true, if_false, and_false, or_false, iff_false]
              split <;> simp
      · cases existing <;> simp [action]

theorem get?_applyTo (hchange : change.IsText) (m : Metadata) (name : String) :
    (change.applyTo m).get? (.text name) =
      if change.name = .text name then change.outcome else m.get? (.text name) := by
  obtain ⟨own, rfl | ⟨value, rfl | rfl⟩⟩ := hchange
  · simp only [applyTo, Metadata.get?_erase, MetadataChange.name, outcome, Cell.text.injEq, eq_comm]
  · simp only [applyTo, Metadata.get?_set, MetadataChange.name, outcome, Cell.text.injEq, eq_comm]
  · simp only [applyTo, Metadata.get?_set, MetadataChange.name, outcome, Cell.text.injEq, eq_comm]

/-- The metadata after a change that is not refused. -/
def step (change : MetadataChange) (taken : Bool) (m : Metadata) : Metadata :=
  if taken then change.applyTo m else m

theorem get?_step_ne (hchange : change.IsText) {name : String} (hname : change.name ≠ .text name) :
    (change.step taken m).get? (.text name) = m.get? (.text name) := by
  cases taken with
  | false => rfl
  | true => exact (get?_applyTo hchange m name).trans (if_neg hname)

theorem step_of_reserved (hname : isReserved change.name = true)
    (h : change.resolve policy existing = .ok taken) : change.step taken m = m := by
  unfold resolve at h
  rw [if_pos hname] at h
  obtain rfl := Except.ok.inj h
  rfl

/-- A change that is not refused settles the value of its name. -/
theorem get?_step (hchange : change.IsText) (hname : isReserved change.name = false)
    (h : change.resolve policy (m.get? change.name) = .ok taken) :
    (change.step taken m).get? change.name = change.outcome := by
  cases taken with
  | true =>
      have happlied := get?_applyTo hchange m change.name.display
      rwa [← hchange.name_eq, if_pos rfl] at happlied
  | false =>
      rcases (resolve_eq_false_iff hchange).1 h with hreserved | ⟨-, hfound⟩
      · simp [hname] at hreserved
      · exact hfound

end MetadataChange

namespace Metadata

open MetadataChange

variable {current merged merged' : Metadata} {change : MetadataChange}
  {changes changes' rest : List MetadataChange}

/-- Whether merging changes ends with a conflict. -/
def Conflicts (policy : MergePolicy) (current : Metadata) (changes : List MetadataChange) : Prop :=
  ∃ name existing incoming,
    (current.merge policy changes).2 = .error (.metadataConflict name existing incoming)

theorem not_conflicts_of_ok (h : (current.merge policy changes).2 = .ok merged) :
    ¬ current.Conflicts policy changes := by
  rintro ⟨name, existing, incoming, hconflict⟩
  rw [h] at hconflict
  cases hconflict

theorem merge_cons_ok {taken : Bool}
    (h : change.resolve policy (current.get? change.name) = .ok taken) :
    (current.merge policy (change :: rest)).2 =
      ((change.step taken current).merge policy rest).2 := by
  rw [merge, h]
  rfl

theorem merge_cons_error {fault : Fault}
    (h : change.resolve policy (current.get? change.name) = .error fault) :
    (current.merge policy (change :: rest)).2 = .error fault := by
  rw [merge, h]

/-- Changes that are merged before others leave the metadata that these are merged into. -/
theorem merge_append {before : List MetadataChange}
    (hbefore : (current.merge policy before).2 = .ok merged) (rest : List MetadataChange) :
    (current.merge policy (before ++ rest)).2 = (merged.merge policy rest).2 := by
  induction before generalizing current with
  | nil =>
      obtain rfl := Except.ok.inj hbefore
      rfl
  | cons change before ih =>
      cases hresolve : change.resolve policy (current.get? change.name) with
      | error fault =>
          rw [merge_cons_error hresolve] at hbefore
          cases hbefore
      | ok taken =>
          rw [merge_cons_ok hresolve] at hbefore
          rw [List.cons_append, merge_cons_ok hresolve, ih hbefore]

/-- The number of changes that are not skipped, each seen after those before it. -/
def written (current : Metadata) : List MetadataChange → Nat
  | [] => 0
  | change :: rest =>
    if change.Skipped (current.get? change.name) then current.written rest
    else (change.applyTo current).written rest + 1

theorem written_cons {taken : Bool} (hchange : change.IsText)
    (h : change.resolve policy (current.get? change.name) = .ok taken)
    (rest : List MetadataChange) : current.written (change :: rest) =
      (change.step taken current).written rest + taken.toNat := by
  have hskipped : change.resolve policy (current.get? change.name) = .ok false ↔
      change.Skipped (current.get? change.name) := resolve_eq_false_iff hchange
  rw [h] at hskipped
  cases taken with
  | false => exact if_pos (hskipped.1 rfl)
  | true => exact if_neg fun hnot => nomatch hskipped.2 hnot

/-- Changes of different names are skipped or not in view of the metadata before all of them. -/
theorem written_eq_countP (hchanges : ∀ change ∈ changes, change.IsText)
    (hnames : changes.Pairwise fun a b => a.name ≠ b.name) :
    current.written changes =
      changes.countP fun change => decide (¬ change.Skipped (current.get? change.name)) := by
  induction changes generalizing current with
  | nil => rfl
  | cons change rest ih =>
      obtain ⟨hfirst, hrest⟩ := List.pairwise_cons.1 hnames
      obtain ⟨hchange, hrestTexts⟩ := List.forall_mem_cons.1 hchanges
      rw [written, List.countP_cons]
      by_cases hskipped : change.Skipped (current.get? change.name)
      · rw [if_pos hskipped, ih hrestTexts hrest]
        simp [hskipped]
      · have hother : ∀ other ∈ rest,
            (change.applyTo current).get? other.name = current.get? other.name := by
          intro other hmem
          have hname := hfirst other hmem
          rw [(hrestTexts other hmem).name_eq] at hname ⊢
          exact (get?_applyTo hchange current _).trans (if_neg hname)
        have hcount : (rest.countP fun other =>
              decide (¬ other.Skipped ((change.applyTo current).get? other.name))) =
            rest.countP fun other => decide (¬ other.Skipped (current.get? other.name)) :=
          List.countP_congr fun other hmem => by rw [hother other hmem]
        rw [if_neg hskipped, ih hrestTexts hrest, hcount]
        simp [hskipped]

/-- What merging changes of different names leaves: under the names of changes that are not
reserved what they come to, and under all other names what was there. -/
structure Settled (current : Metadata) (changes : List MetadataChange) (merged : Metadata) :
    Prop where
  changed : ∀ change ∈ changes, isReserved change.name = false →
    merged.get? change.name = change.outcome
  kept : ∀ name : String, (∀ change ∈ changes, change.name = .text name →
    isReserved change.name = true) → merged.get? (.text name) = current.get? (.text name)

/-- Changes of different names are refused or not in view of the metadata before all of them. -/
theorem merge_settles (policy : MergePolicy) (current : Metadata)
    (hchanges : ∀ change ∈ changes, change.IsText)
    (hnames : changes.Pairwise fun a b => a.name ≠ b.name) :
    ((∃ change ∈ changes, change.Refused policy current) ∧ current.Conflicts policy changes) ∨
      (∀ change ∈ changes, ¬ change.Refused policy current) ∧
        ∃ merged, (current.merge policy changes).2 = .ok merged ∧
          Settled current changes merged := by
  -- the changes that are left have names of their own, so a step does not matter to them
  induction changes generalizing current with
  | nil => exact .inr ⟨nofun, current, rfl, nofun, fun _ _ => rfl⟩
  | cons change rest ih =>
      obtain ⟨hfirst, hrest⟩ := List.pairwise_cons.1 hnames
      obtain ⟨hchange, hrestTexts⟩ := List.forall_mem_cons.1 hchanges
      cases hresolve : change.resolve policy (current.get? change.name) with
      | error fault =>
          obtain ⟨name, existing, incoming, rfl⟩ := conflict_of_resolve hresolve
          exact .inl ⟨⟨change, List.mem_cons_self .., _, hresolve⟩, name, existing, incoming,
            merge_cons_error hresolve⟩
      | ok taken =>
          have hother : ∀ other ∈ rest, (change.step taken current).get? other.name =
              current.get? other.name := by
            intro other hmem
            rw [(hrestTexts other hmem).name_eq]
            refine get?_step_ne hchange ?_
            rw [← (hrestTexts other hmem).name_eq]
            exact hfirst other hmem
          have hrefused : ∀ other ∈ rest,
              (other.Refused policy (change.step taken current) ↔
                other.Refused policy current) := by
            intro other hmem
            rw [Refused, hother other hmem, Refused]
          have hfree : ¬ change.Refused policy current := by
            rintro ⟨fault, hfault⟩
            rw [hresolve] at hfault
            cases hfault
          rcases ih _ hrestTexts hrest with ⟨⟨other, hmem, hbad⟩, hconflicts⟩ |
            ⟨hnone, merged, hmerged, hsettled⟩
          · refine .inl ⟨⟨other, List.mem_cons_of_mem _ hmem, (hrefused other hmem).1 hbad⟩, ?_⟩
            rwa [Conflicts, merge_cons_ok hresolve]
          · refine .inr ⟨?_, merged, (merge_cons_ok hresolve).trans hmerged, ?_, ?_⟩
            · refine List.forall_mem_cons.2 ⟨hfree, fun other hmem => ?_⟩
              rw [← hrefused other hmem]
              exact hnone other hmem
            · refine List.forall_mem_cons.2 ⟨fun hname => ?_, hsettled.changed⟩
              have hlast := hsettled.kept change.name.display fun other hmem heq =>
                absurd (hchange.name_eq.trans heq.symm) (hfirst other hmem)
              rw [← hchange.name_eq] at hlast
              exact hlast.trans (get?_step hchange hname hresolve)
            · intro name hname
              obtain ⟨hown, hothers⟩ := List.forall_mem_cons.1 hname
              rw [hsettled.kept name hothers]
              by_cases heq : change.name = .text name
              · rw [step_of_reserved (hown heq) hresolve]
              · exact get?_step_ne hchange heq

/-- There is a conflict exactly if some change is refused in view of the metadata before. -/
theorem conflicts_iff (hchanges : ∀ change ∈ changes, change.IsText)
    (hnames : changes.Pairwise fun a b => a.name ≠ b.name) :
    current.Conflicts policy changes ↔ ∃ change ∈ changes, change.Refused policy current := by
  rcases merge_settles policy current hchanges hnames with
    ⟨hbad, hconflicts⟩ | ⟨hfree, merged, hmerged, -⟩
  · exact iff_of_true hconflicts hbad
  · exact iff_of_false (not_conflicts_of_ok hmerged) fun ⟨change, hchange, hrefused⟩ =>
      hfree change hchange hrefused

/-- Merging changes of different names ends at the first one that is refused in view of the metadata
before all of them. -/
theorem merge_refused {before after : List MetadataChange} {fault : Fault}
    (hchanges : ∀ other ∈ before ++ change :: after, other.IsText)
    (hnames : (before ++ change :: after).Pairwise fun a b => a.name ≠ b.name)
    (hbefore : ∀ other ∈ before, ¬ other.Refused policy current)
    (hfault : change.resolve policy (current.get? change.name) = .error fault) :
    (current.merge policy (before ++ change :: after)).2 = .error fault := by
  obtain ⟨hbeforeTexts, hafterTexts⟩ := List.forall_mem_append.1 hchanges
  obtain ⟨hbeforeNames, -, hapart⟩ := List.pairwise_append.1 hnames
  have hchange := hafterTexts change (List.mem_cons_self ..)
  rcases merge_settles policy current hbeforeTexts hbeforeNames with
    ⟨⟨other, hother, hrefused⟩, -⟩ | ⟨-, reached, hreached, hsettled⟩
  · exact absurd hrefused (hbefore other hother)
  · have hkept : reached.get? change.name = current.get? change.name := by
      rw [hchange.name_eq]
      refine hsettled.kept _ fun other hother heq => ?_
      exact absurd (heq.trans hchange.name_eq.symm) (hapart other hother change
        (List.mem_cons_self ..))
    rw [merge_append hreached, merge_cons_error (hkept ▸ hfault)]

theorem settled_of_not_conflicts (hchanges : ∀ change ∈ changes, change.IsText)
    (hnames : changes.Pairwise fun a b => a.name ≠ b.name)
    (hfree : ¬ current.Conflicts policy changes) :
    ∃ merged, (current.merge policy changes).2 = .ok merged ∧ Settled current changes merged :=
  (merge_settles policy current hchanges hnames).elim (fun h => absurd h.2 hfree) And.right

theorem Settled.perm (h : Settled current changes merged) (hperm : changes'.Perm changes) :
    Settled current changes' merged where
  changed change hchange := h.changed change (hperm.mem_iff.1 hchange)
  kept name hname := h.kept name fun change hchange => hname change (hperm.mem_iff.2 hchange)

/-- What is settled is the value of every name. -/
theorem Settled.get?_eq (h : Settled current changes merged)
    (h' : Settled current changes merged') (name : String) :
    merged.get? (.text name) = merged'.get? (.text name) := by
  by_cases hname : ∀ change ∈ changes, change.name = .text name → isReserved change.name = true
  · rw [h.kept name hname, h'.kept name hname]
  · push Not at hname
    obtain ⟨change, hchange, heq, hreserved⟩ := hname
    rw [← heq, h.changed change hchange (Bool.eq_false_iff.2 hreserved),
      h'.changed change hchange (Bool.eq_false_iff.2 hreserved)]

theorem Settled.get?_reserved (h : Settled current changes merged) {name : String}
    (hname : isReserved (.text name) = true) :
    merged.get? (.text name) = current.get? (.text name) :=
  h.kept name fun _ _ heq => heq ▸ hname

theorem setIn_self {entries : List (Cell × Cell)} {name : String} {value : Cell}
    (h : get? ⟨entries⟩ (.text name) = some value) :
    setIn (.text name) value entries = entries := by
  induction entries with
  | nil => cases h
  | cons entry rest ih =>
      rw [get?_cons] at h
      rw [setIn, Cell.same_text_right]
      split at h
      next hentry =>
        obtain rfl := Option.some.inj h
        rw [decide_eq_true hentry, if_pos rfl]
      next hentry => rw [decide_eq_false hentry, if_neg Bool.false_ne_true, ih h]

/-- A change that finds what it would leave leaves the metadata as it is. -/
theorem step_of_outcome (policy : MergePolicy) (hchange : change.IsText)
    (houtcome : isReserved change.name = true ∨ merged.get? change.name = change.outcome) :
    ∃ taken, change.resolve policy (merged.get? change.name) = .ok taken ∧
      change.step taken merged = merged := by
  by_cases hedit : isReserved change.name = false ∧ change.action = .edit
  · obtain ⟨hname, hedit⟩ := hedit
    have hfound := houtcome.resolve_left (by simp [hname])
    obtain ⟨name, rfl | ⟨value, rfl | rfl⟩⟩ := hchange
    · cases hedit
    · cases hedit
    · refine ⟨true, ?_, congrArg Metadata.mk (setIn_self hfound)⟩
      unfold resolve
      rw [hname, if_neg Bool.false_ne_true]
  · refine ⟨false, (resolve_eq_false_iff hchange).2 ?_, rfl⟩
    cases hname : isReserved change.name with
    | true => exact .inl hname
    | false => exact .inr ⟨fun h => hedit ⟨hname, h⟩, houtcome.resolve_left (by simp [hname])⟩

theorem merge_of_outcomes (hchanges : ∀ change ∈ changes, change.IsText)
    (houtcomes : ∀ change ∈ changes,
      isReserved change.name = true ∨ merged.get? change.name = change.outcome) :
    (merged.merge policy changes).2 = .ok merged := by
  induction changes with
  | nil => rfl
  | cons change rest ih =>
      obtain ⟨hchange, hrest⟩ := List.forall_mem_cons.1 hchanges
      obtain ⟨houtcome, hrestOutcomes⟩ := List.forall_mem_cons.1 houtcomes
      obtain ⟨taken, hresolve, hstep⟩ := step_of_outcome policy hchange houtcome
      rw [merge_cons_ok hresolve, hstep, ih hrest hrestOutcomes]

/-- Changes of different names may be merged in any order: there is a conflict in all orders or in
none, and otherwise the map that they give is the same.  Merging them again changes nothing, and
reserved names keep their values. -/
theorem merge_reorder (hcurrent : current.IsTextMap)
    (hchanges : ∀ change ∈ changes, change.IsText)
    (hnames : changes.Pairwise fun a b => a.name ≠ b.name) (policy : MergePolicy) :
    (∀ changes', changes'.Perm changes →
      (current.Conflicts policy changes' ↔ current.Conflicts policy changes) ∧
      (¬ current.Conflicts policy changes → ∃ merged merged',
        (current.merge policy changes).2 = .ok merged ∧
        (current.merge policy changes').2 = .ok merged' ∧ merged'.SameAs merged)) ∧
    ∀ merged, (current.merge policy changes).2 = .ok merged →
      (merged.merge policy changes).2 = .ok merged ∧
      ∀ name : String, isReserved (.text name) = true →
        merged.get? (.text name) = current.get? (.text name) := by
  constructor
  · intro changes' hperm
    have hchanges' : ∀ change ∈ changes', change.IsText := fun change hchange =>
      hchanges change (hperm.mem_iff.1 hchange)
    have hnames' := (hperm.pairwise_iff fun hab => Ne.symm hab).2 hnames
    have hconflicts : current.Conflicts policy changes' ↔ current.Conflicts policy changes := by
      rw [conflicts_iff hchanges' hnames', conflicts_iff hchanges hnames]
      simp only [hperm.mem_iff]
    refine ⟨hconflicts, fun hfree => ?_⟩
    obtain ⟨merged, hmerged, hsettled⟩ := settled_of_not_conflicts hchanges hnames hfree
    obtain ⟨merged', hmerged', hsettled'⟩ :=
      settled_of_not_conflicts hchanges' hnames' (hconflicts.not.2 hfree)
    have hsame : merged'.SameAs merged :=
      ((hcurrent.merge hchanges' hmerged').sameAs_iff (hcurrent.merge hchanges hmerged)).2
        ((hsettled'.perm hperm.symm).get?_eq hsettled)
    exact ⟨merged, merged', hmerged, hmerged', hsame⟩
  · intro merged hmerged
    obtain ⟨found, hfound, hsettled⟩ :=
      settled_of_not_conflicts hchanges hnames (not_conflicts_of_ok hmerged)
    obtain rfl := Except.ok.inj (hmerged.symm.trans hfound)
    refine ⟨merge_of_outcomes hchanges fun change hchange => ?_,
      fun name => hsettled.get?_reserved⟩
    cases hname : isReserved change.name with
    | true => exact .inl rfl
    | false => exact .inr (hsettled.changed change hchange hname)

/-- A name that is removed, a reserved one, a new one, and one that has the value to be added. -/
theorem merge_reorder_reserved :
    let current := ofTexts [("a", "1"), (aggHashName, "X"), ("b", "2")]
    let changes : List MetadataChange := [.remove (.text "b"),
      .edit (.text aggHashName) (.text "Y"), .add (.text "c") (.text "3"),
      .add (.text "a") (.text "1")]
    current.IsTextMap ∧ (∀ change ∈ changes, change.IsText) ∧
      changes.Pairwise (fun a b => a.name ≠ b.name) ∧
      ∃ merged merged', (current.merge .strict changes).2 = .ok merged ∧
        (current.merge .strict changes.reverse).2 = .ok merged' ∧ merged'.SameAs merged ∧
        (merged.merge .strict changes).2 = .ok merged ∧
        merged.get? (.text aggHashName) = current.get? (.text aggHashName) := by
  intro current changes
  have hcurrent : current.IsTextMap := isTextMap_ofTexts (by decide)
  have hchanges : ∀ change ∈ changes, change.IsText := by
    simp [changes, MetadataChange.IsText]
  have hnames : changes.Pairwise fun a b => a.name ≠ b.name := by decide
  have hmerged : (current.merge .strict changes).2 =
      .ok (ofTexts [("a", "1"), (aggHashName, "X"), ("c", "3")]) := by rfl
  obtain ⟨hreorder, hagain⟩ := merge_reorder hcurrent hchanges hnames .strict
  obtain ⟨merged, merged', hok, hok', hsame⟩ :=
    (hreorder changes.reverse changes.reverse_perm).2 (not_conflicts_of_ok hmerged)
  obtain ⟨hidempotent, hreserved⟩ := hagain merged hok
  exact ⟨hcurrent, hchanges, hnames, merged, merged', hok, hok', hsame, hidempotent,
    hreserved aggHashName rfl⟩

end Metadata

end TileAtlas
