import TileAtlas.Order.Sort
import Mathlib.Data.List.Sort
import Mathlib.Order.Defs.LinearOrder
import Mathlib.Tactic.Common

/-!
# What sorting depends on

Sorting images of elements is sorting the elements by their images.  A list that is in order
already stays as it is, and two rearrangements of one list without ties sort to the same list.
-/

namespace TileAtlas

variable {α β : Type}

theorem insertBy_map (le : β → β → Bool) (f : α → β) (a : α) (l : List α) :
    insertBy le (f a) (l.map f) = (insertBy (fun a b => le (f a) (f b)) a l).map f := by
  induction l with
  | nil => rfl
  | cons b rest ih =>
      simp only [List.map_cons, insertBy]
      split
      · rfl
      · rw [ih, List.map_cons]

theorem sortBy_map (le : β → β → Bool) (f : α → β) (l : List α) :
    sortBy le (l.map f) = (sortBy (fun a b => le (f a) (f b)) l).map f := by
  induction l with
  | nil => rfl
  | cons a rest ih => rw [List.map_cons, sortBy, ih, insertBy_map, sortBy]

theorem insertBy_congr {le le' : α → α → Bool} {a : α} {l : List α}
    (h : ∀ b ∈ l, le a b = le' a b) : insertBy le a l = insertBy le' a l := by
  induction l with
  | nil => rfl
  | cons b rest ih =>
      rw [List.forall_mem_cons] at h
      simp only [insertBy, h.1, ih h.2]

/-- Sorting does not depend on how elements that are not there compare. -/
theorem sortBy_congr {le le' : α → α → Bool} {l : List α}
    (h : ∀ a ∈ l, ∀ b ∈ l, le a b = le' a b) : sortBy le l = sortBy le' l := by
  induction l with
  | nil => rfl
  | cons a rest ih =>
      have hrest := ih fun b hb c hc =>
        h b (List.mem_cons_of_mem a hb) c (List.mem_cons_of_mem a hc)
      rw [sortBy, sortBy, hrest]
      refine insertBy_congr fun b hb => ?_
      exact h a (List.mem_cons_self ..) b (List.mem_cons_of_mem a ((mem_sortBy _).1 hb))

theorem sortBy_of_pairwise {le : α → α → Bool} {l : List α} (h : l.Pairwise (le · ·)) :
    sortBy le l = l := by
  induction l with
  | nil => rfl
  | cons a rest ih =>
      obtain ⟨hfirst, hrest⟩ := List.pairwise_cons.1 h
      rw [sortBy, ih hrest]
      cases rest with
      | nil => rfl
      | cons b rest => rw [insertBy, if_pos (hfirst b (List.mem_cons_self ..))]

theorem insertBy_of_forall {le : α → α → Bool} {a : α} {l : List α} (h : ∀ b ∈ l, le a b = true) :
    insertBy le a l = a :: l := by
  cases l with
  | nil => rfl
  | cons b rest => rw [insertBy, if_pos (h b (List.mem_cons_self ..))]

theorem filter_insertBy_of_neg {le : α → α → Bool} {p : α → Bool} {a : α} (ha : ¬ p a = true)
    (l : List α) : (insertBy le a l).filter p = l.filter p := by
  induction l with
  | nil => simp [insertBy, ha]
  | cons b rest ih =>
      rw [insertBy]
      split
      · rw [List.filter_cons_of_neg ha]
      · rw [List.filter_cons, List.filter_cons, ih]

theorem filter_insertBy_of_pos {le : α → α → Bool} (htrans : ∀ a b c, le a b → le b c → le a c)
    {p : α → Bool} {a : α} (ha : p a = true) {l : List α} (h : l.Pairwise (le · ·)) :
    (insertBy le a l).filter p = insertBy le a (l.filter p) := by
  induction h with
  | nil => simp [insertBy, ha]
  | @cons b rest hfirst hrest ih =>
      rw [insertBy]
      split
      next hbefore =>
        have hall : ∀ c ∈ (b :: rest).filter p, le a c = true := by
          intro c hc
          rcases List.mem_cons.1 (List.mem_of_mem_filter hc) with rfl | hc
          · exact hbefore
          · exact htrans a b c hbefore (hfirst c hc)
        rw [List.filter_cons_of_pos ha, insertBy_of_forall hall]
      next hafter =>
        by_cases hb : p b = true
        · rw [List.filter_cons_of_pos hb, List.filter_cons_of_pos hb, ih, insertBy, if_neg hafter]
        · rw [List.filter_cons_of_neg hb, List.filter_cons_of_neg hb, ih]

/-- Elements may be left out before the sorting or after it. -/
theorem filter_sortBy {le : α → α → Bool} (htrans : ∀ a b c, le a b → le b c → le a c)
    (htotal : ∀ a b, le a b || le b a) (p : α → Bool) (l : List α) :
    (sortBy le l).filter p = sortBy le (l.filter p) := by
  induction l with
  | nil => rfl
  | cons a rest ih =>
      rw [sortBy]
      by_cases ha : p a = true
      · rw [filter_insertBy_of_pos htrans ha (pairwise_sortBy htrans htotal rest), ih,
          List.filter_cons_of_pos ha, sortBy]
      · rw [filter_insertBy_of_neg ha, ih, List.filter_cons_of_neg ha]

/-- Rearrangements of elements of which no two stand at the same place sort to the same list. -/
theorem sortBy_eq_of_perm_of_antisymm {le : α → α → Bool}
    (htrans : ∀ a b c, le a b → le b c → le a c) (htotal : ∀ a b, le a b || le b a) {l l' : List α}
    (hperm : l.Perm l') (h : ∀ a ∈ l, ∀ b ∈ l, le a b → le b a → a = b) :
    sortBy le l = sortBy le l' := by
  have hsorted : (sortBy le l).Perm (sortBy le l') :=
    (sortBy_perm le l).trans (hperm.trans (sortBy_perm le l').symm)
  refine hsorted.eq_of_pairwise (fun a b ha hb => ?_) (pairwise_sortBy htrans htotal l)
    (pairwise_sortBy htrans htotal l')
  exact h a ((mem_sortBy le).1 ha) b (hperm.mem_iff.2 ((mem_sortBy le).1 hb))

/-- Among rearrangements the first element with a property is the same if only one has it. -/
theorem find?_eq_of_perm {p : α → Bool} {l l' : List α} (hperm : l.Perm l')
    (h : ∀ a ∈ l, ∀ b ∈ l, p a → p b → a = b) : l.find? p = l'.find? p := by
  cases hfind : l.find? p with
  | none =>
      refine (List.find?_eq_none.2 fun a ha => ?_).symm
      exact List.find?_eq_none.1 hfind a (hperm.mem_iff.2 ha)
  | some a =>
      have ha := List.mem_of_find?_eq_some hfind
      have hp := List.find?_some hfind
      obtain ⟨b, hb⟩ := Option.isSome_iff_exists.1
        (List.find?_isSome.2 ⟨a, hperm.mem_iff.1 ha, hp⟩)
      rw [hb, h a ha b (hperm.mem_iff.2 (List.mem_of_find?_eq_some hb)) hp (List.find?_some hb)]

section Keyed

variable {κ : Type} [LinearOrder κ] (key : α → κ)

theorem decide_le_trans (a b c : α) : decide (key a ≤ key b) → decide (key b ≤ key c) →
    decide (key a ≤ key c) := by
  simp only [decide_eq_true_eq]
  exact le_trans

theorem decide_le_total (a b : α) : decide (key a ≤ key b) || decide (key b ≤ key a) := by
  simp only [Bool.or_eq_true, decide_eq_true_eq]
  exact le_total _ _

theorem pairwise_le_sortBy (l : List α) :
    (sortBy (fun a b => decide (key a ≤ key b)) l).Pairwise fun a b => key a ≤ key b :=
  (pairwise_sortBy (decide_le_trans key) (decide_le_total key) l).imp of_decide_eq_true

/-- Sorting by a key brings elements of different keys into strictly ascending order. -/
theorem pairwise_lt_sortBy {l : List α} (h : l.Pairwise fun a b => key a ≠ key b) :
    (sortBy (fun a b => decide (key a ≤ key b)) l).Pairwise fun a b => key a < key b := by
  have hne : (sortBy (fun a b => decide (key a ≤ key b)) l).Pairwise fun a b => key a ≠ key b :=
    ((sortBy_perm _ l).pairwise_iff fun hab => hab.symm).2 h
  exact ((pairwise_le_sortBy key l).and hne).imp fun ⟨hab, hab'⟩ => lt_of_le_of_ne hab hab'

theorem eq_of_perm_of_pairwise_lt {l l' : List α} (hperm : l.Perm l')
    (h : l.Pairwise fun a b => key a < key b) (h' : l'.Pairwise fun a b => key a < key b) :
    l = l' :=
  hperm.eq_of_pairwise (fun _ _ _ _ hab hba => absurd hba hab.not_gt) h h'

/-- Where the keys ascend, the first element with a property has the smallest key of all that have
it. -/
theorem exists_first_of_ascending {p : α → Prop} {l : List α}
    (hl : l.Pairwise fun a b => key a < key b) (hsome : ∃ a ∈ l, p a) :
    ∃ before a after, l = before ++ a :: after ∧ p a ∧ (∀ b ∈ before, ¬ p b) ∧
      ∀ b ∈ l, p b → key a ≤ key b := by
  classical
  obtain ⟨a, ha, hpa⟩ := hsome
  obtain ⟨first, hfind⟩ := Option.isSome_iff_exists.1
    (List.find?_isSome (p := fun a => decide (p a)).2 ⟨a, ha, decide_eq_true hpa⟩)
  obtain ⟨hfirst, before, after, rfl, hbefore⟩ := List.find?_eq_some_iff_append.1 hfind
  have hnone : ∀ b ∈ before, ¬ p b := fun b hb => by simpa using hbefore b hb
  refine ⟨before, first, after, rfl, of_decide_eq_true hfirst, hnone, fun b hb hpb => ?_⟩
  obtain ⟨-, hafter, -⟩ := List.pairwise_append.1 hl
  rcases List.mem_append.1 hb with hb | hb
  · exact absurd hpb (hnone b hb)
  · rcases List.mem_cons.1 hb with rfl | hb
    · exact le_rfl
    · exact le_of_lt ((List.pairwise_cons.1 hafter).1 b hb)

/-- Rearrangements of elements with different keys sort to the same list. -/
theorem sortBy_eq_of_perm {l l' : List α} (hperm : l.Perm l')
    (h : l.Pairwise fun a b => key a ≠ key b) :
    sortBy (fun a b => decide (key a ≤ key b)) l = sortBy (fun a b => decide (key a ≤ key b)) l' :=
  eq_of_perm_of_pairwise_lt key
    ((sortBy_perm _ l).trans (hperm.trans (sortBy_perm _ l').symm)) (pairwise_lt_sortBy key h)
    (pairwise_lt_sortBy key ((hperm.pairwise_iff fun hab => hab.symm).1 h))

end Keyed

end TileAtlas
