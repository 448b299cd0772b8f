import TileAtlas.Geometry.Wkt

/-!
# Regions

A region is a polygon, or several of them, with at least one point.
-/

namespace TileAtlas

structure Region where
  kind : GeometryKind
  polygons : List Polygon
  deriving DecidableEq, Repr

namespace Region

def parse (text : String) : Except Invalid Region :=
  match Wkt.parse? text with
  | none => .error .regionText
  | some geometry =>
    if geometry.empty then .error .regionEmpty
    else if geometry.kind = .polygon ∨ geometry.kind = .multiPolygon then
      .ok ⟨geometry.kind, geometry.polygons⟩
    else .error (.regionKind geometry.kind.word)

def meets (r : Region) (b : Box) : Bool :=
  r.polygons.any (·.meets b)

def lesser (x y : Binary64) : Binary64 := if y.lt x then y else x

def greater (x y : Binary64) : Binary64 := if x.lt y then y else x

def bounds? (r : Region) : Option Box :=
  match r.polygons.flatMap (·.shell) with
  | [] => none
  | p :: rest => some (rest.foldl
      (fun b q => ⟨lesser b.west q.x, lesser b.south q.y, greater b.east q.x, greater b.north q.y⟩)
      ⟨p.x, p.y, p.x, p.y⟩)

end Region

end TileAtlas
