/-!
# Powers of two and of ten

The scales of doubles and of their decimal forms.
-/

namespace TileAtlas

def twoTo (n : Nat) : Nat := Nat.pow 2 n

def tenTo (n : Nat) : Nat := Nat.pow 10 n

theorem twoTo_succ (n : Nat) : twoTo (n + 1) = twoTo n * 2 := rfl

theorem twoTo_pos (n : Nat) : 0 < twoTo n := by
  induction n with
  | zero => exact Nat.one_pos
  | succ n ih => rw [twoTo_succ]; omega

end TileAtlas
