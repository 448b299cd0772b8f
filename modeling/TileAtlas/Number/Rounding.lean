/-!
# Rounding quotients

Quotients of natural numbers rounded to a neighbouring natural number.  Decimal output and
decimal input both reduce to `roundDiv`; they differ only in where an exact half goes.
-/

namespace TileAtlas

/-- Where a quotient exactly between two numbers is rounded to. -/
inductive Tie
  | toEven
  | up
  deriving DecidableEq, Repr

/-- The natural number nearest to `num / den`; an exact half goes where `tie` says. -/
def roundDiv (tie : Tie) (num den : Nat) : Nat :=
  if 2 * (num % den) < den then num / den
  else if den < 2 * (num % den) then num / den + 1
  else match tie with
    | .up => num / den + 1
    | .toEven => num / den + num / den % 2

theorem roundDiv_near (tie : Tie) (num den : Nat) (h : 0 < den) :
    2 * (roundDiv tie num den * den) ≤ 2 * num + den ∧
      2 * num ≤ 2 * (roundDiv tie num den * den) + den := by
  have parts := Nat.div_add_mod num den
  have below := Nat.mod_lt num h
  have whole : num / den * den = den * (num / den) := Nat.mul_comm _ _
  have next : (num / den + 1) * den = den * (num / den) + den := by
    rw [Nat.add_mul, Nat.one_mul, whole]
  unfold roundDiv
  split
  · omega
  · split
    · omega
    · cases tie
      · have parity : num / den % 2 = 0 ∨ num / den % 2 = 1 := by omega
        rcases parity with e | e <;> simp only [e, Nat.add_zero] <;> omega
      · simp only; omega

end TileAtlas
