import TileAtlas.Proofs.Container.Cell

/-!
# The order of cells

Cells of any kinds can be compared: first by rank, then numbers by exact value, texts by code points
and byte strings byte by byte.  Two integers are compared as such, an integer and a double by their
places; this comes to the same, so that the comparison is transitive across all kinds.
-/

namespace TileAtlas

namespace Cell

/-- The text that a cell holds; nothing for other kinds. -/
def heldText : Cell → String
  | text s => s
  | _ => ""

/-- The bytes that a cell holds; none for other kinds. -/
def heldBytes : Cell → List UInt8
  | blob b => Bytes.toList b
  | _ => []

/-- The order of cells without a case for two integers, two texts or two byte strings: what a kind
does not hold does not tell its cells apart. -/
def uniform : Cell → Cell → Ordering :=
  compareLex (compareOn rank) <| compareLex (compareOn fun c => c.place.1) <|
    compareLex (compareOn fun c => c.place.2) <|
      compareLex (compareOn heldText) (compareOn heldBytes)

theorem scaledInt_lt {m n : Int} : Binary64.scaledInt m < Binary64.scaledInt n ↔ m < n := by
  have hpos : (0 : Int) < twoTo 1074 := Int.natCast_pos.2 (twoTo_pos 1074)
  exact Int.mul_lt_mul_right hpos

/-- The places of integers are in the order of the integers. -/
theorem compare_scaledInt (m n : Int) :
    Ord.compare (Binary64.scaledInt m) (Binary64.scaledInt n) = Ord.compare m n := by
  simp only [Int.compare_eq_ite_lt, scaledInt_lt]

theorem compare_eq_uniform (a b : Cell) : compare a b = uniform a b := by
  have hplaces (c d : Cell) : Binary64.comparePlaces c.place d.place =
      (Ord.compare c.place.1 d.place.1).then (Ord.compare c.place.2 d.place.2) := rfl
  cases a <;> cases b <;>
    simp only [compare, uniform, compareLex, compareOn, rank, heldText, heldBytes, hplaces,
      Std.compare_self, Ordering.then_eq, Ordering.eq_then]
  case int.int m n => exact (compare_scaledInt m n).symm
  -- the rest differ in rank, or hold what is compared last
  all_goals rfl

instance : Std.TransCmp compare := by
  have huniform : compare = uniform := funext fun a => funext fun b => compare_eq_uniform a b
  rw [huniform]
  exact inferInstanceAs (Std.TransCmp (compareLex _ _))

end Cell

end TileAtlas
