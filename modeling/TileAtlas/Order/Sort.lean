/-!
# Sorting

Insertion sort by a reflexive comparison.  Elements that stand at the same place keep their order,
the result is a rearrangement of the input, and it is in order whenever the comparison is
transitive and total.
-/

namespace TileAtlas

variable {α : Type}

/-- Inserts an element before the first one that it may precede. -/
def insertBy (le : α → α → Bool) (a : α) : List α → List α
  | [] => [a]
  | b :: rest => if le a b then a :: b :: rest else b :: insertBy le a rest

def sortBy (le : α → α → Bool) : List α → List α
  | [] => []
  | a :: rest => insertBy le a (sortBy le rest)

theorem insertBy_perm (le : α → α → Bool) (a : α) (l : List α) :
    (insertBy le a l).Perm (a :: l) := by
  induction l with
  | nil => exact .refl _
  | cons b rest ih =>
    simp only [insertBy]
    split
    · exact .refl _
    · exact (ih.cons b).trans (.swap a b rest)

theorem sortBy_perm (le : α → α → Bool) (l : List α) : (sortBy le l).Perm l := by
  induction l with
  | nil => exact .refl _
  | cons a rest ih => exact (insertBy_perm le a _).trans (ih.cons a)

@[simp] theorem mem_sortBy (le : α → α → Bool) {a : α} {l : List α} : a ∈ sortBy le l ↔ a ∈ l :=
  (sortBy_perm le l).mem_iff

@[simp] theorem length_sortBy (le : α → α → Bool) (l : List α) :
    (sortBy le l).length = l.length :=
  (sortBy_perm le l).length_eq

theorem pairwise_insertBy {le : α → α → Bool} (trans : ∀ a b c, le a b → le b c → le a c)
    (total : ∀ a b, le a b || le b a) (a : α) {l : List α} (h : l.Pairwise (le · ·)) :
    (insertBy le a l).Pairwise (le · ·) := by
  induction h with
  | nil => simp [insertBy]
  | @cons b rest first ordered ih =>
    simp only [insertBy]
    split
    · next before =>
      refine List.pairwise_cons.2 ⟨fun c member => ?_, List.pairwise_cons.2 ⟨first, ordered⟩⟩
      rcases List.mem_cons.1 member with rfl | member
      · exact before
      · exact trans a b c before (first c member)
    · next after =>
      refine List.pairwise_cons.2 ⟨fun c member => ?_, ih⟩
      rcases List.mem_cons.1 ((insertBy_perm le a rest).mem_iff.1 member) with rfl | member
      · simpa [after] using total c b
      · exact first c member

theorem pairwise_sortBy {le : α → α → Bool} (trans : ∀ a b c, le a b → le b c → le a c)
    (total : ∀ a b, le a b || le b a) (l : List α) : (sortBy le l).Pairwise (le · ·) := by
  induction l with
  | nil => exact .nil
  | cons a rest ih => exact pairwise_insertBy trans total a ih

end TileAtlas
