import TileAtlas.Geometry.Box

/-!
# Polygons

A polygon is an outer ring and the rings of its holes.  Whether it meets a box is decided exactly,
on integer coordinates: either one of its edges meets the box, or no edge does and the box lies
in the interior or the exterior as a whole, so that one corner tells which.
-/

namespace TileAtlas

structure Point where
  x : Binary64
  y : Binary64
  deriving DecidableEq, Repr

/-- A polygon.  The last point of a ring repeats the first. -/
structure Polygon where
  shell : List Point
  holes : List (List Point)
  deriving DecidableEq, Repr

/-- A point on the grid of all doubles, whose spacing is the least positive double. -/
structure GridPoint where
  x : Int
  y : Int

structure GridBox where
  west : Int
  south : Int
  east : Int
  north : Int

namespace GridBox

def ofBox (b : Box) : GridBox := ⟨b.west.scaled, b.south.scaled, b.east.scaled, b.north.scaled⟩

def corners (b : GridBox) : List GridPoint :=
  [⟨b.west, b.south⟩, ⟨b.east, b.south⟩, ⟨b.east, b.north⟩, ⟨b.west, b.north⟩]

end GridBox

namespace GridPoint

def ofPoint (p : Point) : GridPoint := ⟨p.x.scaled, p.y.scaled⟩

/-- Positive if the third point lies to the left of the line from the first to the second,
negative if it lies to the right, zero if it lies on the line. -/
def turn (a b c : GridPoint) : Int :=
  (b.x - a.x) * (c.y - a.y) - (b.y - a.y) * (c.x - a.x)

/-- Whether the segment between two points meets a box.  It does not exactly if the two are
separated by a vertical line, by a horizontal line, or by the line through the segment. -/
def segmentMeets (box : GridBox) (a b : GridPoint) : Bool :=
  min a.x b.x ≤ box.east && box.west ≤ max a.x b.x &&
    min a.y b.y ≤ box.north && box.south ≤ max a.y b.y &&
    !(box.corners.all fun c => 0 < turn a b c) && !(box.corners.all fun c => turn a b c < 0)

/-- Whether the segment between two points crosses the ray that goes east from a point. -/
def crossesRay (p a b : GridPoint) : Bool :=
  (p.y < a.y) != (p.y < b.y) &&
    (if a.y < b.y then 0 < turn a b p else turn a b p < 0)

end GridPoint

def edges {α : Type} : List α → List (α × α)
  | a :: b :: rest => (a, b) :: edges (b :: rest)
  | _ => []

/-- Whether a point off a ring lies within it: a ray from it crosses the ring an odd number of
times. -/
def ringEncloses (p : GridPoint) (ring : List GridPoint) : Bool :=
  (edges ring).countP (fun (a, b) => GridPoint.crossesRay p a b) % 2 == 1

def ringMeets (box : GridBox) (ring : List GridPoint) : Bool :=
  (edges ring).any fun (a, b) => GridPoint.segmentMeets box a b

namespace Polygon

def isEmpty (p : Polygon) : Bool := p.shell.isEmpty

def meets (p : Polygon) (b : Box) : Bool :=
  let box := GridBox.ofBox b
  let shell := p.shell.map GridPoint.ofPoint
  let holes := p.holes.map (·.map GridPoint.ofPoint)
  let corner : GridPoint := ⟨box.west, box.south⟩
  ringMeets box shell || holes.any (ringMeets box) ||
    (ringEncloses corner shell && !holes.any (ringEncloses corner))

end Polygon

end TileAtlas
