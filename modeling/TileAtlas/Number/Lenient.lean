import TileAtlas.Container.Cell
import TileAtlas.Fault.Basic

/-!
# Integer fields

The integer that a cell denotes where a field of a record has to be an integer.  A text may have
blanks around, a sign, single underscores between digits and a fraction of zeros; a double must
be whole.
-/

namespace TileAtlas.Number

open Text

def dropZeroFraction? (chars : List Char) : Option (List Char) :=
  match chars.dropWhile (· ≠ '.') with
  | [] => some chars
  | _ :: fraction => if fraction.all (· = '0') then some (chars.takeWhile (· ≠ '.')) else none

def fieldInt? (s : String) : Option Int := do
  let (negative, rest) := splitSign (strip s.toList)
  let whole ← dropZeroFraction? rest
  let digits ← dropUnderscores? ' ' whole
  if digits.isEmpty ∨ !digits.all isAsciiDigit then none
  else some (if negative then -(digitsValue digits : Int) else digitsValue digits)

def fieldIntOfDouble (x : Binary64) : Except FieldProblem Int :=
  if !x.isFinite then .error .finite
  else match x.toInt? with
    | none => .error .intFraction
    | some n => if -0x8000000000000000 < n ∧ n < 0x8000000000000000 then .ok n else .error .intSize

def fieldIntOfText (s : String) : Except FieldProblem Int :=
  match fieldInt? s with
  | none => .error .intText
  | some n => if s.length ≤ 4300 then .ok n else .error .intSize

def fieldInt : Cell → Except FieldProblem Int
  | .null => .error .intKind
  | .int n => .ok n
  | .real x => fieldIntOfDouble x
  | .text s => fieldIntOfText s
  | .blob b =>
    match String.fromUTF8? b with
    | some s => fieldIntOfText s
    | none => .error .intText

end TileAtlas.Number
