import TileAtlas.Number.Power
import TileAtlas.Number.Rounding

/-!
# Double precision numbers

A double is its 64 bits.  Every finite double is a whole multiple of two to the power -1074, so
its exact value is the integer `scaled`, and the order of doubles and integers is the order of
exact values.  `ofRatio` gives the double nearest to a fraction, ties to the even significand.
-/

namespace TileAtlas

structure Binary64 where
  bits : UInt64
  deriving DecidableEq, Repr, Inhabited

namespace Binary64

def signWeight : Nat := 0x8000000000000000

/-- The number of fractions that a double can store; the exponent stands above the fraction. -/
def fractionSize : Nat := 0x10000000000000

def negative (x : Binary64) : Bool :=
  signWeight ≤ x.bits.toNat

def exponentField (x : Binary64) : Nat :=
  x.bits.toNat / fractionSize % 2048

def fractionField (x : Binary64) : Nat :=
  x.bits.toNat % fractionSize

def isNaN (x : Binary64) : Bool :=
  x.exponentField = 2047 && x.fractionField ≠ 0

def isInfinite (x : Binary64) : Bool :=
  x.exponentField = 2047 && x.fractionField = 0

def isFinite (x : Binary64) : Bool :=
  x.exponentField ≠ 2047

def significand (x : Binary64) : Nat :=
  if x.exponentField = 0 then x.fractionField else x.fractionField + fractionSize

/-- The exponent of two, counted from -1074, that `significand` is scaled by. -/
def shift (x : Binary64) : Nat :=
  x.exponentField - 1

/-- The absolute value of a finite double as a multiple of `2 ^ (-1074)`. -/
def scaledAbs (x : Binary64) : Nat :=
  x.significand * twoTo x.shift

def scaled (x : Binary64) : Int :=
  if x.negative then -(x.scaledAbs : Int) else x.scaledAbs

def scaledInt (n : Int) : Int :=
  n * twoTo 1074

/-- The place of a number among all numbers: first which infinity it is, then its exact value. -/
def place (x : Binary64) : Int × Int :=
  if x.isInfinite then (if x.negative then -1 else 1, 0) else (0, x.scaled)

def placeInt (n : Int) : Int × Int :=
  (0, scaledInt n)

def comparePlaces (a b : Int × Int) : Ordering :=
  (compare a.1 b.1).then (compare a.2 b.2)

def zero : Binary64 := ⟨0⟩

def infinity (negative : Bool) : Binary64 :=
  ⟨UInt64.ofNat (2047 * fractionSize + if negative then signWeight else 0)⟩

def nan : Binary64 := ⟨0x7ff8000000000000⟩

/-- The double with the given sign and absolute value `n * 2 ^ (shift - 1074)`, where `n` is at
most `2 ^ 53` and below `2 ^ 52` only if `shift` is zero; too large a value is infinite. -/
def assemble (negative : Bool) (n shift : Nat) : Binary64 :=
  let magnitude := if n < fractionSize then n else n + shift * fractionSize
  if magnitude < 2047 * fractionSize then
    ⟨UInt64.ofNat (magnitude + if negative then signWeight else 0)⟩
  else infinity negative

def ofRatio (negative : Bool) (num den : Nat) : Binary64 :=
  if num = 0 then ⟨if negative then UInt64.ofNat signWeight else 0⟩
  else
    let fine := num * twoTo 1074
    -- the quotient at the finest spacing shows how many bits have to go
    let excess := (fine / den).log2 - 52
    let n := roundDiv .toEven fine (den * twoTo excess)
    assemble negative n excess

def ofInt (n : Int) : Binary64 :=
  ofRatio (n < 0) n.natAbs 1

def toInt? (x : Binary64) : Option Int :=
  if x.isFinite && x.scaledAbs % twoTo 1074 = 0 then
    some (if x.negative then -(x.scaledAbs / twoTo 1074 : Nat)
      else (x.scaledAbs / twoTo 1074 : Nat))
  else none

def toFloat (x : Binary64) : Float := Float.ofBits x.bits

def ofFloat (x : Float) : Binary64 := ⟨x.toBits⟩

end Binary64

end TileAtlas
