import TileAtlas.Number.Binary64

/-!
# Decimal forms of doubles

Three ways to choose decimal digits for a finite double: the fewest digits that read back as the
same double (`shortest`), a given number of significant digits (`significant`), and a given number
of digits after the point (`fixedPlaces`).  All three work on exact integers.  How the digits are
laid out is a `Layout`.
-/

namespace TileAtlas

/-- The non-negative number `digits * 10 ^ exponent`. -/
structure Decimal where
  digits : Nat
  exponent : Int
  deriving DecidableEq, Repr

namespace Decimal

def digitsOf (n : Nat) : List Char := Nat.toDigits 10 n

theorem isDigit_of_mem_digitsOf {c : Char} {n : Nat} (h : c ∈ digitsOf n) : c.isDigit = true :=
  Nat.isDigit_of_mem_toDigits (by decide) (by decide) h

theorem notMem_natRepr {c : Char} (hc : c.isDigit = false) (n : Nat) : c ∉ n.repr.toList := by
  rw [Nat.repr, String.toList_ofList]
  intro hmem
  exact absurd (isDigit_of_mem_digitsOf hmem) (by simp [hc])

def length (d : Decimal) : Nat := (digitsOf d.digits).length

def magnitude (d : Decimal) : Int := d.exponent + d.length - 1

def stripZeros : Nat → Decimal → Decimal
  | 0, d => d
  | fuel + 1, d =>
    if d.digits ≠ 0 ∧ d.digits % 10 = 0 then stripZeros fuel ⟨d.digits / 10, d.exponent + 1⟩ else d

/-- The exponent `e` with `10 ^ e ≤ num / den < 10 ^ (e + 1)`, for a positive fraction. -/
def leadingPlace (num den : Nat) : Int :=
  if den ≤ num then ((digitsOf (num / den)).length : Int) - 1
  else
    -- the first power of ten that lifts the fraction to one has about as many zeros as den / num
    let zeros := (digitsOf (den / num)).length
    if den ≤ num * tenTo (zeros - 1) then 1 - zeros else -zeros

/-- A fraction on the grid of multiples of `10 ^ place`, as numerator and denominator. -/
def onGrid (num den : Nat) (place : Int) : Nat × Nat :=
  if 0 ≤ place then (num, den * tenTo place.toNat) else (num * tenTo (-place).toNat, den)

end Decimal

namespace Binary64

open Decimal

def ratio (x : Binary64) : Nat × Nat :=
  if 1074 ≤ x.shift then (x.significand * twoTo (x.shift - 1074), 1)
  else (x.significand, twoTo (1074 - x.shift))

/-- The ends of the interval of numbers nearest to a double, over the denominator
`4 * den` of its `ratio`.  The gap below a power of two is half as wide. -/
def neighbourhood (x : Binary64) : Nat × Nat :=
  let unit := if 1074 ≤ x.shift then twoTo (x.shift - 1074) else 1
  let below := if x.fractionField = 0 ∧ 1 < x.exponentField then unit else 2 * unit
  (4 * x.ratio.1 - below, 4 * x.ratio.1 + 2 * unit)

/-- Whether `candidate * 10 ^ place` reads back as `x`: it lies in the neighbourhood, whose ends
belong to it if the significand is even. -/
def readsBack (x : Binary64) (candidate : Nat) (place : Int) : Bool :=
  let (low, high) := x.neighbourhood
  let den := 4 * x.ratio.2
  let (value, scale) :=
    if 0 ≤ place then (candidate * tenTo place.toNat * den, 1)
    else (candidate * den, tenTo (-place).toNat)
  if x.significand % 2 = 0 then low * scale ≤ value && value ≤ high * scale
  else low * scale < value && value < high * scale

/-- The neighbour of a positive double on the grid of `count` significant digits that reads back
as it, the nearer one if both do. -/
def onDigits? (x : Binary64) (lead : Int) (count : Nat) : Option Decimal :=
  let place := lead - count + 1
  let (num, den) := onGrid x.ratio.1 x.ratio.2 place
  let down := num / den
  match x.readsBack down place, x.readsBack (down + 1) place with
  | true, true => some ⟨roundDiv .toEven num den, place⟩
  | true, false => some ⟨down, place⟩
  | false, true => some ⟨down + 1, place⟩
  | false, false => none

/-- The fewest digits that read back as the same finite double, nearest to it among those. -/
def shortest (x : Binary64) : Decimal :=
  if x.significand = 0 then ⟨0, 0⟩
  else
    let lead := leadingPlace x.ratio.1 x.ratio.2
    let found := (List.range 17).findSome? fun k => x.onDigits? lead (k + 1)
    stripZeros 20 (found.getD ⟨0, 0⟩)

def significant (x : Binary64) (count : Nat) : Decimal :=
  if x.significand = 0 then ⟨0, 0⟩
  else
    let place := leadingPlace x.ratio.1 x.ratio.2 - count + 1
    let (num, den) := onGrid x.ratio.1 x.ratio.2 place
    stripZeros (count + 1) ⟨roundDiv .up num den, place⟩

end Binary64

namespace Decimal

structure Layout where
  /-- The least exponent of the leading digit that is written without an exponent. -/
  leastPositional : Int
  greatestPositional : Int
  pointBeforeExponent : Bool
  infinity : String
  notANumber : String

def exponentText (e : Int) : List Char :=
  let digits := digitsOf e.natAbs
  (if e < 0 then '-' else '+') :: (if digits.length < 2 then '0' :: digits else digits)

/-- The digits of a number, always with a point, or with an exponent where the layout asks. -/
def Layout.digits (layout : Layout) (d : Decimal) : List Char :=
  let all := digitsOf d.digits
  let lead := d.magnitude
  if layout.leastPositional ≤ lead ∧ lead ≤ layout.greatestPositional then
    if 0 ≤ d.exponent then all ++ List.replicate d.exponent.toNat '0' ++ ['.', '0']
    else if 0 ≤ lead then all.take (lead.toNat + 1) ++ '.' :: all.drop (lead.toNat + 1)
    else '0' :: '.' :: (List.replicate ((-lead).toNat - 1) '0' ++ all)
  else
    let point := match all.drop 1 with
      | [] => if layout.pointBeforeExponent then ['.', '0'] else []
      | more => '.' :: more
    all.take 1 ++ point ++ 'e' :: exponentText lead

def Layout.render (layout : Layout) (choose : Binary64 → Decimal) (x : Binary64) : String :=
  let sign := if x.negative then ['-'] else []
  if x.isNaN then layout.notANumber
  else if x.isInfinite then String.ofList sign ++ layout.infinity
  else String.ofList (sign ++ layout.digits (choose x))

end Decimal

namespace Binary64

/-- Doubles in messages and answers: the fewest digits that read back, without an exponent from
`0.0001` up to sixteen digits before the point. -/
def plainLayout : Decimal.Layout := ⟨-4, 15, false, "inf", "nan"⟩

def text (x : Binary64) : String := plainLayout.render shortest x

/-- Doubles stored in a text column: fifteen significant digits, without an exponent from `0.0001`
up to fifteen digits before the point, and always with a point. -/
def columnLayout : Decimal.Layout := ⟨-4, 14, true, "Inf", "NaN"⟩

/-- The text that a text column keeps in place of a double; zero has no sign there. -/
def columnText (x : Binary64) : String :=
  columnLayout.render (·.significant 15) (if x.significand = 0 && x.isFinite then zero else x)

/-- A double with `places` digits after the point, a half going to the even neighbour. -/
def fixedPlaces (places : Nat) (x : Binary64) : String :=
  let sign := if x.negative then "-" else ""
  if x.isNaN then "nan"
  else if x.isInfinite then sign ++ "inf"
  else
    let (num, den) := x.ratio
    let units := roundDiv .toEven (num * tenTo places) den
    let digits := Decimal.digitsOf units
    let padded := List.replicate (places + 1 - digits.length) '0' ++ digits
    let whole := padded.take (padded.length - places)
    let part := padded.drop (padded.length - places)
    sign ++ String.ofList (if places = 0 then whole else whole ++ '.' :: part)

end Binary64

end TileAtlas
