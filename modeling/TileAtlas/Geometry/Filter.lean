import TileAtlas.Geometry.Bounds
import TileAtlas.Geometry.Region

/-!
# Tile filters

A filter restricts tiles to a range of zoom levels, to a box and to a region.
-/

namespace TileAtlas

structure TileFilter where
  minZoom : Option Int
  maxZoom : Option Int
  box : Option Box
  region : Option Region
  deriving DecidableEq

namespace TileFilter

def all : TileFilter := ⟨none, none, none, none⟩

/-- The filter of four optional restrictions; the zoom levels must form a range. -/
def build (minZoom maxZoom : Option Int) (box : Option Box) (region : Option Region) :
    Except Invalid TileFilter :=
  match minZoom, maxZoom with
  | some least, some greatest =>
    if greatest < least then .error (.zoomRange least greatest)
    else .ok ⟨minZoom, maxZoom, box, region⟩
  | _, _ => .ok ⟨minZoom, maxZoom, box, region⟩

def parse (minZoom maxZoom : Option Int) (box region : Option String) :
    Except Invalid TileFilter := do
  let box ← box.mapM Box.parse
  let region ← region.mapM Region.parse
  build minZoom maxZoom box region

def isSpatial (f : TileFilter) : Bool := f.box.isSome || f.region.isSome

def acceptsZoom (f : TileFilter) (zoom : Nat) : Bool :=
  f.minZoom.all (fun least => decide (least ≤ (zoom : Int))) &&
    f.maxZoom.all (fun greatest => decide ((zoom : Int) ≤ greatest))

def acceptsBounds (f : TileFilter) (bounds : Box) : Bool :=
  f.box.all (·.overlaps bounds) && f.region.all (·.meets bounds)

/-- Whether a filter accepts a tile.  A tile outside its zoom level has no area. -/
def accepts (f : TileFilter) (key : TileKey) : Except Failure Bool :=
  if !f.acceptsZoom key.zoom then .ok false
  else if !f.isSpatial then .ok true
  else do
    checkZoom key.zoom
    if !key.inRange then .ok false
    else
      let bounds ← key.bounds
      return f.acceptsBounds bounds

end TileFilter

end TileAtlas
