import TileAtlas.Container.Cell
import TileAtlas.Number.Power

/-!
# Tile keys

The address of a tile: zoom level, column and row, all natural numbers.  Keys are ordered by zoom
level, then column, then row, and every stream of tiles follows that order.
-/

namespace TileAtlas

structure TileKey where
  zoom : Nat
  column : Nat
  row : Nat
  deriving DecidableEq, Repr, Inhabited

namespace TileKey

def compare (a b : TileKey) : Ordering :=
  (Ord.compare a.zoom b.zoom).then ((Ord.compare a.column b.column).then (Ord.compare a.row b.row))

instance : Ord TileKey := ⟨compare⟩

def before (a b : TileKey) : Bool := compare a b == .lt

instance : LT TileKey := ⟨fun a b => before a b = true⟩

instance (a b : TileKey) : Decidable (a < b) := inferInstanceAs (Decidable (before a b = true))

def text (k : TileKey) : String :=
  toString k.zoom ++ "/" ++ toString k.column ++ "/" ++ toString k.row

/-- The number of digits that a number may have to be put into a message. -/
def longestNumber : Nat := 4300

/-- Whether a key can be put into a message. -/
def isWritable (k : TileKey) : Bool :=
  k.zoom < tenTo longestNumber && k.column < tenTo longestNumber && k.row < tenTo longestNumber

/-- The key that three cells hold, if all of them are integers and none is negative. -/
def ofCells? : Cell → Cell → Cell → Option TileKey
  | .int z, .int x, .int y =>
    if 0 ≤ z ∧ 0 ≤ x ∧ 0 ≤ y then some ⟨z.toNat, x.toNat, y.toNat⟩ else none
  | _, _, _ => none

def cells (k : TileKey) : List Cell :=
  [.int k.zoom, .int k.column, .int k.row]

theorem ofCells?_cells (k : TileKey) :
    ofCells? (.int k.zoom) (.int k.column) (.int k.row) = some k := by
  simp [ofCells?]

end TileKey

/-- A tile: its key and its payload.  A tile without a payload is a null tile, which is not the
same as no tile. -/
structure Tile where
  key : TileKey
  data : Option Bytes
  deriving DecidableEq, Inhabited

/-- The row counted from the other end of its zoom level: rows are stored from the south, and
geometry counts them from the north. -/
def flipRow (zoom : Nat) (row : Int) : Int :=
  twoTo zoom - 1 - row

theorem flipRow_flipRow (zoom : Nat) (row : Int) : flipRow zoom (flipRow zoom row) = row := by
  simp only [flipRow]; omega

end TileAtlas
