import TileAtlas.Bytes.Basic
import TileAtlas.Number.Decimal
import TileAtlas.Text.Quoted

/-!
# Cells

The value in one column of one row.  Columns of foreign containers carry no declared kind, so a
cell of any kind may stand anywhere.  Cells are ordered: null first, then numbers by exact value
(integers and doubles together), then texts by code points, then byte strings.
-/

namespace TileAtlas

/-- The value in one column of one row. -/
inductive Cell
  | null
  | int (n : Int)
  | real (x : Binary64)
  | text (s : String)
  | blob (b : Bytes)
  deriving DecidableEq, Inhabited

namespace Cell

def rank : Cell → Nat
  | null => 0
  | int _ => 1
  | real _ => 1
  | text _ => 2
  | blob _ => 3

def place : Cell → Int × Int
  | int n => Binary64.placeInt n
  | real x => x.place
  | _ => (0, 0)

def compare : Cell → Cell → Ordering
  | int m, int n => Ord.compare m n
  | text s, text t => Ord.compare s t
  | blob b, blob c => Ord.compare (Bytes.toList b) (Bytes.toList c)
  | a, b => (Ord.compare a.rank b.rank).then (Binary64.comparePlaces a.place b.place)

def le (a b : Cell) : Bool := (compare a b).isLE

/-- Whether two cells stand at the same place: the same value, or an integer and a double of the
same value. -/
def same (a b : Cell) : Bool := compare a b == .eq

/-- Whether two cells are equal as the conditions of a query see it: null equals nothing. -/
def eqv (a b : Cell) : Bool := a.rank != 0 && same a b

def isNull : Cell → Bool
  | null => true
  | _ => false

def display : Cell → String
  | null => "None"
  | int n => toString n
  | real x => x.text
  | text s => s
  | blob b => Text.quotedBytes (Bytes.toList b)

def quoted : Cell → String
  | text s => Text.quoted s
  | c => c.display

/-- The length that the statistics of a container count: the bytes of a byte string, the
characters of a text up to the first null character, the characters of a number's text. -/
def length? : Cell → Option Nat
  | null => none
  | int n => some (toString n).length
  | real x => some x.columnText.length
  | text s => some (s.toList.takeWhile (·.toNat ≠ 0)).length
  | blob b => some b.size

/-- Whether the cell is an integer that a container can hold. -/
def fits : Cell → Bool
  | int n => -0x8000000000000000 ≤ n && n < 0x8000000000000000
  | _ => true

def ofText? : Option String → Cell
  | some s => text s
  | none => null

def ofPayload : Option Bytes → Cell
  | some b => blob b
  | none => null

end Cell

end TileAtlas
