import TileAtlas.Number.Binary64
import TileAtlas.Text.Blank
import TileAtlas.Text.Digit

/-!
# Reading numbers

Numbers as they are written by hand: an integer with a sign, a decimal fraction with an optional
exponent, or one of the words for infinity and for a value that is not a number.  `double?` is
generous about the surroundings: it allows blanks at the ends, digits of any script and single
underscores between digits.
-/

namespace TileAtlas.Number

open Text

def splitSign : List Char → Bool × List Char
  | '-' :: rest => (true, rest)
  | '+' :: rest => (false, rest)
  | chars => (false, chars)

/-- The exponent part of a number: nothing, or the letter `e`, a sign and digits. -/
def exponent? : List Char → Option Int
  | [] => some 0
  | c :: rest =>
    if c = 'e' ∨ c = 'E' then
      let (negative, digits) := splitSign rest
      if digits.isEmpty ∨ !digits.all isAsciiDigit then none
      else some (if negative then -(digitsValue digits : Int) else digitsValue digits)
    else none

def magnitude? (chars : List Char) : Option (List Char × Int) :=
  let whole := chars.takeWhile isAsciiDigit
  let afterWhole := chars.dropWhile isAsciiDigit
  let (part, rest) := match afterWhole with
    | '.' :: more => (more.takeWhile isAsciiDigit, more.dropWhile isAsciiDigit)
    | _ => ([], afterWhole)
  let digits := whole ++ part
  if digits.isEmpty then none
  else (exponent? rest).map fun e => (digits, e - part.length)

/-- The double nearest to `digits * 10 ^ exponent`.  Exponents so large that the result is zero
or infinite whatever the digits are decided without computing the power. -/
def nearest (negative : Bool) (digits : List Char) (exponent : Int) : Binary64 :=
  let digits := digits.dropWhile (· = '0')
  let n := digitsValue digits
  let lead := exponent + digits.length
  if n = 0 ∨ lead < -400 then Binary64.ofRatio negative 0 1
  else if 400 < lead then Binary64.infinity negative
  else if 0 ≤ exponent then Binary64.ofRatio negative (n * tenTo exponent.toNat) 1
  else Binary64.ofRatio negative n (tenTo (-exponent).toNat)

/-- A signed decimal fraction, or a word for infinity or for a value that is not a number. -/
def plainDouble? (chars : List Char) : Option Binary64 :=
  let (negative, rest) := splitSign chars
  let word := String.ofList (rest.map Char.toLower)
  if word = "inf" ∨ word = "infinity" then some (Binary64.infinity negative)
  else if word = "nan" then some Binary64.nan
  else (magnitude? rest).map fun (digits, e) => nearest negative digits e

/-- The characters without underscores, provided each underscore stands between two digits. -/
def dropUnderscores? : Char → List Char → Option (List Char)
  | previous, [] => if previous = '_' then none else some []
  | previous, c :: rest =>
    if c = '_' then
      if isAsciiDigit previous then dropUnderscores? c rest else none
    else if previous = '_' ∧ !isAsciiDigit c then none
    else (dropUnderscores? c rest).map (c :: ·)

def tidy? (s : String) : Option (List Char) :=
  dropUnderscores? ' ' (strip (s.toList.map plainDigit))

def double? (s : String) : Option Binary64 :=
  (tidy? s).bind plainDouble?

/-- The integer that a text denotes: blanks around, a sign, at most 4300 digits. -/
def int? (s : String) : Option Int := do
  let chars ← tidy? s
  let (negative, digits) := splitSign chars
  if digits.isEmpty ∨ 4300 < digits.length ∨ !digits.all isAsciiDigit then none
  else some (if negative then -(digitsValue digits : Int) else digitsValue digits)

end TileAtlas.Number
