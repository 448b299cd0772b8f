import TileAtlas.Number.Lenient
import TileAtlas.Tileset.Rows

/-!
# Statistics of a tileset

For every zoom level: how many tiles there are and how many of them are null tiles, how many
bytes their payloads have, and the least and the greatest column and row.  The cells are counted
as they are stored; only the resulting figures have to be integers.
-/

namespace TileAtlas

structure ZoomSummary where
  zoom : Int
  tiles : Nat
  nullTiles : Nat
  bytes : Nat
  minColumn : Int
  maxColumn : Int
  minRow : Int
  maxRow : Int
  deriving DecidableEq, Repr

structure TilesetSummary where
  file : String
  shape : Shape
  zooms : List ZoomSummary
  aggHash : Option String
  deriving DecidableEq, Repr

def total : List Nat → Nat
  | [] => 0
  | n :: rest => n + total rest

namespace TilesetSummary

def tiles (s : TilesetSummary) : Nat := total (s.zooms.map (·.tiles))

def bytes (s : TilesetSummary) : Nat := total (s.zooms.map (·.bytes))

def minZoom? (s : TilesetSummary) : Option Int := s.zooms.head?.map (·.zoom)

def maxZoom? (s : TilesetSummary) : Option Int := s.zooms.getLast?.map (·.zoom)

end TilesetSummary

/-- The least of some cells that is not null; null if there is none. -/
def leastCell (cells : List Cell) : Cell :=
  cells.foldl (fun least c => if c.isNull then least
    else if least.isNull || c.compare least == .lt then c else least) .null

/-- The greatest of some cells; null if there is none but null. -/
def greatestCell (cells : List Cell) : Cell :=
  cells.foldl (fun greatest c => if c.compare greatest == .gt then c else greatest) .null

/-- The first elements of a sorted list that stand at the same place, run after run. -/
def runs {α : Type} (same : α → α → Bool) : List α → List (List α)
  | [] => []
  | a :: rest =>
    match runs same rest with
    | (b :: group) :: groups =>
      if same a b then (a :: b :: group) :: groups else [a] :: (b :: group) :: groups
    | groups => [a] :: groups

def zoomGroups (rows : List TileRow) : List (List TileRow) :=
  runs (fun a b => a.z.same b.z) (sortBy (fun a b => a.z.le b.z) rows)

def fieldProblems (fields : List (String × Except FieldProblem Int)) :
    List (String × FieldProblem) :=
  fields.filterMap fun
    | (name, .error problem) => some (name, problem)
    | _ => none

def ZoomSummary.ofGroup (group : List TileRow) : Except Failure ZoomSummary :=
  let columns := group.map (·.x)
  let rows := group.map (·.y)
  let zoom := Number.fieldInt ((group.head?.map (·.z)).getD .null)
  let minColumn := Number.fieldInt (leastCell columns)
  let maxColumn := Number.fieldInt (greatestCell columns)
  let minRow := Number.fieldInt (leastCell rows)
  let maxRow := Number.fieldInt (greatestCell rows)
  match zoom, minColumn, maxColumn, minRow, maxRow with
  | .ok zoom, .ok minColumn, .ok maxColumn, .ok minRow, .ok maxRow =>
    .ok {
      zoom, minColumn, maxColumn, minRow, maxRow
      tiles := group.length
      nullTiles := group.countP (·.data.isNull)
      bytes := total (group.filterMap (·.data.length?)) }
  | _, _, _, _, _ =>
    .error (.fields (fieldProblems [("max_column", maxColumn), ("max_row", maxRow),
      ("min_column", minColumn), ("min_row", minRow), ("zoom_level", zoom)]))

def Tileset.summary (t : Tileset) (file : String) (c : Container) :
    Except Failure TilesetSummary := do
  let rows ← onFile file (t.shape.layout.rows c)
  let zooms ← (zoomGroups rows).mapM ZoomSummary.ofGroup
  let aggHash ← metadataValue? (.text aggHashName) file c
  return ⟨file, t.shape, zooms, aggHash⟩

end TileAtlas
