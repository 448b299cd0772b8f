import TileAtlas.Fault.Basic
import TileAtlas.Geometry.Box

/-!
# The bounds of a tile

A zoom level divides the Mercator square into equal columns and rows.  The bounds of a tile in
degrees follow from its key by the inverse projection, computed in doubles.
-/

namespace TileAtlas

/-- The double nearest to an integer, if the integer is not beyond all doubles. -/
def doubleOf (n : Int) : Except Failure Float :=
  let x := Binary64.ofInt n
  if x.isFinite then .ok x.toFloat else .error .outOfRange

def halfTurn : Float := Float.ofBits 0x400921fb54442d18

/-- The hyperbolic sine, which is beyond all doubles from an argument of about 710 on. -/
def hyperbolicSine (x : Float) : Except Failure Float :=
  let y := x.sinh
  if y.isInf && !x.isInf then .error .outOfRange else .ok y

def longitude (column : Int) (side : Float) : Except Failure Float := do
  let x ← doubleOf column
  return x / side * 360 - 180

def latitude (row : Int) (side : Float) : Except Failure Float := do
  let y ← doubleOf (2 * row)
  let s ← hyperbolicSine (halfTurn * (1 - y / side))
  return s.atan * (180 / halfTurn)

def checkZoom (zoom : Nat) : Except Failure Unit :=
  if zoom < 0x4000000000 then .ok ()
  else if zoom < 0x40000000000000000 then .error .noMemory
  else .error .outOfRange

namespace TileKey

def inRange (k : TileKey) : Bool :=
  k.column >>> k.zoom == 0 && k.row >>> k.zoom == 0

def bounds (k : TileKey) : Except Failure Box := do
  checkZoom k.zoom
  if 1023 < k.zoom then .error .outOfRange
  else
    let side ← doubleOf (twoTo k.zoom)
    let fromNorth := flipRow k.zoom k.row
    let west ← longitude k.column side
    let north ← latitude fromNorth side
    let east ← longitude (k.column + 1) side
    let south ← latitude (fromNorth + 1) side
    return ⟨.ofFloat west, .ofFloat south, .ofFloat east, .ofFloat north⟩

end TileKey

end TileAtlas
