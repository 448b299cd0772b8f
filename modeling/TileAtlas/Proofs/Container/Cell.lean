import TileAtlas.Container.Table
import TileAtlas.Order.Sort
import Mathlib.Tactic.Common

/-!
# Integer cells and text cells

In the containers that the library writes, keys are integers and names are texts.  Such cells are
equal to a query exactly if they are equal, and their order is that of what they hold.
-/

namespace TileAtlas

namespace Cell

@[simp] theorem isNull_ofText? (s : Option String) : (ofText? s).isNull = s.isNone := by
  cases s <;> rfl

@[simp] theorem same_text (s t : String) : same (text s) (text t) = decide (s = t) := by
  rw [Bool.eq_iff_iff, decide_eq_true_iff]
  exact beq_iff_eq.trans Std.compare_eq_iff_eq

@[simp] theorem eqv_text (s t : String) : eqv (text s) (text t) = decide (s = t) :=
  (Bool.true_and _).trans (same_text s t)

@[simp] theorem same_int (m n : Int) : same (int m) (int n) = decide (m = n) := by
  rw [Bool.eq_iff_iff, decide_eq_true_iff]
  exact beq_iff_eq.trans Std.compare_eq_iff_eq

@[simp] theorem eqv_int (m n : Int) : eqv (int m) (int n) = decide (m = n) :=
  (Bool.true_and _).trans (same_int m n)

@[simp] theorem null_eqv (c : Cell) : eqv null c = false := rfl

@[simp] theorem eqv_null (c : Cell) : eqv c null = false := by
  cases c <;> rfl

theorem le_text (s t : String) : le (text s) (text t) = (Ord.compare s t).isLE := rfl

theorem le_int (m n : Int) : le (int m) (int n) = decide (m ≤ n) := by
  rw [le, compare, Bool.eq_iff_iff, decide_eq_true_iff, Int.isLE_compare]

theorem compare_int (m n : Nat) : compare (int m) (int n) = Ord.compare m n := by
  show Ord.compare (m : Int) (n : Int) = _
  rw [Int.compare_eq_ite_lt, Nat.compare_eq_ite_lt]
  simp

end Cell

end TileAtlas
