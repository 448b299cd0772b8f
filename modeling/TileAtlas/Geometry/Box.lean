import TileAtlas.Fault.Invalid
import TileAtlas.Number.Reading

/-!
# Boxes

A box of degrees, bounded by two meridians and two parallels.  Two boxes overlap if they share
more than their edges.
-/

namespace TileAtlas

namespace Binary64

/-- Whether one double is less than another; what is not a number compares with nothing. -/
def lt (x y : Binary64) : Bool :=
  !x.isNaN && !y.isNaN && comparePlaces x.place y.place == .lt

def ge (x y : Binary64) : Bool :=
  !x.isNaN && !y.isNaN && comparePlaces x.place y.place != .lt

end Binary64

structure Box where
  west : Binary64
  south : Binary64
  east : Binary64
  north : Binary64
  deriving DecidableEq, Repr

namespace Box

def corners (b : Box) : List Binary64 := [b.west, b.south, b.east, b.north]

def ofBounds (west south east north : Binary64) : Except Invalid Box :=
  if west.ge east || south.ge north then .error (.boxWithoutArea [west, south, east, north])
  else .ok ⟨west, south, east, north⟩

def part (text : String) : Except Invalid Binary64 :=
  let text := Text.stripString text
  match Number.double? text with
  | some x => .ok x
  | none => .error (.number text)

def parse (text : String) : Except Invalid Box :=
  match text.splitOn "," with
  | [west, south, east, north] => do
    let west ← part west
    let south ← part south
    let east ← part east
    let north ← part north
    ofBounds west south east north
  | _ => .error (.boxParts text)

def overlaps (a b : Box) : Bool :=
  b.west.lt a.east && a.west.lt b.east && b.south.lt a.north && a.south.lt b.north

end Box

end TileAtlas
