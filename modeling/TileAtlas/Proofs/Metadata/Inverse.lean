import TileAtlas.Proofs.Metadata.Sync
import TileAtlas.Proofs.Metadata.TextMap

/-!
# Differences and merging

The difference of two maps of texts has one change for every name that is not reserved and has
different values in them, and no other changes.  Merged into any map that has the values of the
first one under all names that are not reserved, it gives the second one there; the reserved names
stay as they are.
-/

namespace TileAtlas

namespace Metadata

variable {base target current : Metadata} {name : String}

/-- The entries that belong to the hash and patch machinery. -/
def reserved (m : Metadata) : Metadata := ⟨m.entries.filter fun entry => isReserved entry.1⟩

theorem IsTextMap.hasTexts {m : Metadata} (h : m.IsTextMap) : m.HasTexts :=
  fun _ _ hvalue => h.hasText hvalue

/-- What is left of a map and the reserved entries of another one have no name in common. -/
theorem IsTextMap.user_append_reserved {m m' : Metadata} (h : m.IsTextMap) (h' : m'.IsTextMap) :
    (⟨m.user.entries ++ m'.reserved.entries⟩ : Metadata).IsTextMap where
  texts entry hentry := (List.mem_append.1 hentry).elim (h.user.texts entry)
    fun hentry => h'.texts entry (List.mem_of_mem_filter hentry)
  distinct := by
    rw [names, List.map_append]
    refine List.nodup_append.2 ⟨h.user.distinct, (h'.filter _).distinct, ?_⟩
    rintro a ha b hb rfl
    obtain ⟨entry, hentry, rfl⟩ := List.mem_map.1 ha
    obtain ⟨other, hother, heq⟩ := List.mem_map.1 hb
    have huser : (!isReserved entry.1) = true := (List.mem_filter.1 hentry).2
    have hreserved : isReserved other.1 = true := (List.mem_filter.1 hother).2
    rw [heq] at hreserved
    simp [hreserved] at huser

theorem get?_user_append_reserved (m m' : Metadata) (name : String) :
    get? ⟨m.user.entries ++ m'.reserved.entries⟩ (.text name) =
      if isReserved (.text name) then m'.get? (.text name) else m.get? (.text name) := by
  have happend : get? ⟨m.user.entries ++ m'.reserved.entries⟩ (.text name) =
      (m.user.get? (.text name)).or (m'.reserved.get? (.text name)) := by
    simp only [get?, List.find?_append, Option.map_or]
  rw [happend, get?_user, reserved, get?_filter m' isReserved name]
  cases isReserved (.text name) <;> simp

/-- A name for which a change might be made has one exactly if its values differ. -/
theorem isSome_changeOf?_iff (htarget : target.HasTexts)
    (hname : (base.get? (.text name)).isSome ∨ (target.get? (.text name)).isSome) :
    (base.changeOf? target (.text name)).isSome ↔
      base.get? (.text name) ≠ target.get? (.text name) := by
  constructor
  · intro hsome heq
    obtain ⟨change, hchange⟩ := Option.isSome_iff_exists.1 hsome
    rw [heq, or_self] at hname
    obtain ⟨value, hvalue⟩ := Option.isSome_iff_exists.1 hname
    obtain ⟨text, rfl⟩ := htarget name value hvalue
    simp [changeOf?, heq, hvalue] at hchange
  · intro hne
    refine Option.isSome_iff_ne_none.2 fun hnone => hne ?_
    exact get?_eq_of_changeOf?_none htarget hnone

/-- A name that is not reserved has a change exactly if its values differ. -/
theorem isSome_changeOf?_user_iff (htarget : target.HasTexts) :
    ((base.user.get? (.text name)).isSome ∨ (target.user.get? (.text name)).isSome) ∧
        (base.user.changeOf? target.user (.text name)).isSome ↔
      isReserved (.text name) = false ∧ base.get? (.text name) ≠ target.get? (.text name) := by
  rw [and_congr_right fun hname => isSome_changeOf?_iff htarget.user hname, get?_user, get?_user]
  cases isReserved (.text name) with
  | true => simp
  | false =>
      simp only [Bool.false_eq_true, if_false, true_and, ne_eq, and_iff_right_iff_imp]
      intro hne
      by_contra hnone
      rw [not_or, Option.not_isSome_iff_eq_none, Option.not_isSome_iff_eq_none] at hnone
      exact hne (hnone.1.trans hnone.2.symm)

theorem countP_changesBetween (base target : Metadata) {names : List String} (hnames : names.Nodup)
    (name : String) :
    (base.changesBetween target names).countP (fun change => change.name = .text name) =
      if name ∈ names ∧ (base.changeOf? target (.text name)).isSome then 1 else 0 := by
  have hnamed (other : String) : ((base.changeOf? target (.text other)).map
      fun change => decide (change.name = .text name)).getD false =
        (other == name && (base.changeOf? target (.text name)).isSome) := by
    by_cases hother : other = name
    · subst hother
      cases hchange : base.changeOf? target (.text other) with
      | none => simp
      | some change => simp [name_of_changeOf? hchange]
    · cases hchange : base.changeOf? target (.text other) with
      | none => simp [hother]
      | some change => simp [name_of_changeOf? hchange, hother]
  rw [changesBetween, List.countP_filterMap]
  refine (List.countP_congr fun other _ => by rw [hnamed]).trans ?_
  cases (base.changeOf? target (.text name)).isSome with
  | false => simp
  | true =>
      simp only [Bool.and_true, and_true]
      exact hnames.count

theorem changes_eq_nil_iff {changes : List MetadataChange}
    (hchanges : ∀ change ∈ changes, change.IsText) :
    changes = [] ↔
      ∀ name : String, changes.countP (fun change => change.name = .text name) = 0 := by
  constructor
  · rintro rfl name
    rfl
  · intro hnone
    refine List.eq_nil_iff_forall_not_mem.2 fun change hchange => ?_
    exact List.countP_eq_zero.1 (hnone change.name.display) change hchange
      (decide_eq_true (hchanges change hchange).name_eq)

/-- The difference of two maps of texts has one change for every name that is not reserved and has
different values in them, in strictly ascending order of names, and no others.  Merged under either
policy into a map that agrees with the base on all names that are not reserved, it gives the entries
of the target under these names and leaves the reserved entries. -/
theorem merge_diff (hbase : base.IsTextMap) (htarget : target.IsTextMap)
    (hcurrent : current.IsTextMap) (hagrees : current.user.SameAs base.user)
    (policy : MergePolicy) :
    ∃ changes merged, base.diff target = .ok changes ∧
      (current.merge policy changes).2 = .ok merged ∧
      merged.SameAs ⟨target.user.entries ++ current.reserved.entries⟩ ∧
      (∀ change ∈ changes, change.IsText ∧ isReserved change.name = false) ∧
      changes.Pairwise (fun a b => a.name.display < b.name.display) ∧
      (∀ name : String, changes.countP (fun change => change.name = .text name) =
        if isReserved (.text name) = false ∧ base.get? (.text name) ≠ target.get? (.text name)
          then 1 else 0) ∧
      (changes = [] ↔ base.user.SameAs target.user) := by
  obtain ⟨baseEntries, rfl, hbaseNames⟩ := hbase.eq_ofTexts
  obtain ⟨targetEntries, rfl, htargetNames⟩ := htarget.eq_ofTexts
  obtain ⟨names, hdiff, hsorted, hmem⟩ := diff_ofTexts_eq hbaseNames htargetNames
  obtain ⟨changes, hchanges, hlisted, hmerge⟩ := diff_ofTexts hbaseNames htargetNames
  obtain rfl := Except.ok.inj (hdiff.symm.trans hchanges)
  have hkept (name : String) (hname : isReserved (.text name) = false) :
      current.get? (.text name) = (ofTexts baseEntries).get? (.text name) := by
    have hget := (hcurrent.user.sameAs_iff hbase.user).1 hagrees name
    rwa [get?_user, get?_user, hname] at hget
  obtain ⟨merged, hmerged, hget⟩ := hmerge policy current hkept
  have hcount (name : String) :
      ((ofTexts baseEntries).user.changesBetween (ofTexts targetEntries).user names).countP
        (fun change => change.name = .text name) = if isReserved (.text name) = false ∧
          (ofTexts baseEntries).get? (.text name) ≠ (ofTexts targetEntries).get? (.text name)
            then 1 else 0 := by
    rw [countP_changesBetween _ _ hsorted.nodup]
    simp only [hmem, isSome_changeOf?_user_iff htarget.hasTexts]
  refine ⟨_, merged, hdiff, hmerged, ?_, fun change hchange =>
    ⟨hlisted.texts change hchange, hlisted.unreserved change hchange⟩, hlisted.ascending, hcount,
    ?_⟩
  · have hmergedMap := hcurrent.merge hlisted.texts hmerged
    refine (hmergedMap.sameAs_iff (htarget.user_append_reserved hcurrent)).2 fun name => ?_
    rw [hget, get?_user_append_reserved]
  · rw [changes_eq_nil_iff hlisted.texts, hbase.user.sameAs_iff htarget.user]
    refine forall_congr' fun name => ?_
    rw [hcount, get?_user, get?_user]
    cases isReserved (.text name) with
    | true => simp
    | false => simp

/-- A value is edited, a name removed and another one added, while each side has a hash of its
own. -/
theorem merge_diff_hashes :
    let base := ofTexts [("b", "2"), (aggHashName, "X"), ("a", "1")]
    let target := ofTexts [("c", "3"), ("a", "9"), (aggHashName, "Y")]
    let current := ofTexts [("a", "1"), (hashAfterName, "Z"), ("b", "2")]
    base.IsTextMap ∧ target.IsTextMap ∧ current.IsTextMap ∧ current.user.SameAs base.user ∧
      ∃ changes merged, base.diff target = .ok changes ∧ changes.length = 3 ∧
        (current.merge .strict changes).2 = .ok merged ∧
        merged.SameAs (ofTexts [(hashAfterName, "Z"), ("a", "9"), ("c", "3")]) := by
  intro base target current
  have hbase : base.IsTextMap := isTextMap_ofTexts (by decide)
  have htarget : target.IsTextMap := isTextMap_ofTexts (by decide)
  have hcurrent : current.IsTextMap := isTextMap_ofTexts (by decide)
  have hagrees : current.user.SameAs base.user := by decide
  obtain ⟨changes, merged, hdiff, hmerged, hsame, -⟩ :=
    merge_diff hbase htarget hcurrent hagrees .strict
  refine ⟨hbase, htarget, hcurrent, hagrees, changes, merged, hdiff, ?_, hmerged,
    hsame.trans ?_⟩
  · have hlength : (base.diff target).map List.length = .ok 3 := by decide +kernel
    rw [hdiff] at hlength
    exact Except.ok.inj hlength
  · decide

end Metadata

end TileAtlas
