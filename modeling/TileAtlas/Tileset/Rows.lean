import TileAtlas.Container.Visit
import TileAtlas.Geometry.Filter
import TileAtlas.Metadata.Basic
import TileAtlas.Tile.Hash
import TileAtlas.Tileset.Layout

/-!
# Reading tiles

Whatever its layout, a container shows the same kind of rows: three cells for the key, one for
the payload and one for the stored hash.  `scan` reads them as tiles in ascending order of keys
and stops at the first row that is no tile.

Which rows there are depends on the contents alone; rows of one key come in the order in which the
query at hand visits them.
-/

namespace TileAtlas

structure TileRow where
  z : Cell
  x : Cell
  y : Cell
  data : Cell
  stored : Cell
  deriving DecidableEq, Inhabited

namespace TileRow

/-- The row that a list of cells forms: the key, then the payload, then the hash. -/
def ofCells (cells : Row) : TileRow :=
  ⟨cells.getD 0 .null, cells.getD 1 .null, cells.getD 2 .null, cells.getD 3 .null,
    cells.getD 4 .null⟩

def keyOrder (a b : TileRow) : Ordering :=
  (a.z.compare b.z).then ((a.x.compare b.x).then (a.y.compare b.y))

def keyLe (a b : TileRow) : Bool := (keyOrder a b).isLE

/-- Whether a row stands at a key, where the key's numbers are compared with the columns of some
affinities. -/
def hasKey (affinity : String → Affinity) (key : TileKey) (row : TileRow) : Bool :=
  row.z.eqv ((affinity "zoom_level").operand key.zoom row.z) &&
    row.x.eqv ((affinity "tile_column").operand key.column row.x) &&
      row.y.eqv ((affinity "tile_row").operand key.row row.y)

/-- Whether the zoom cell of a row, in a column of some affinity, is within the zoom levels of a
filter.  Texts and byte strings come after all numbers, and null is within no bound. -/
def withinZoom (affinity : Affinity) (filter : TileFilter) (row : TileRow) : Bool :=
  filter.minZoom.all (fun least =>
      !row.z.isNull && Cell.le (affinity.operand least row.z) row.z) &&
    filter.maxZoom.all (fun greatest =>
      !row.z.isNull && Cell.le row.z (affinity.operand greatest row.z))

end TileRow

/-- The number of zero bytes that there is memory for, where nothing else is said. -/
def usualMemory : Nat := 0x1000000000

/-- The bytes of a payload cell.  An integer stands for as many zero bytes, if there is memory for
them. -/
def payload (memory : Nat) : Cell → Except Failure (Option Bytes)
  | .null => .ok none
  | .blob b => .ok (some b)
  | .int n =>
    if n < 0 then .error (.invalid .negativeCount)
    else if 0x7fffffffffffffdf ≤ n then .error .outOfRange
    else if n < memory then .ok (some (Bytes.zeros n.toNat))
    else .error .noMemory
  | .real _ | .text _ => .error .wrongKind

/-- The images of an identifier, as pairs of identifier and payload. -/
def imagesOf (joined : Affinity) (images : List Row) (id : Cell) : List Row :=
  images.filter fun image => (joined.keep (image.getD 0 .null)).eqv (joined.keep id)

/-- The rows of a normalized container: every row of the map with its images, or with none. -/
def joinedRows (joined : Affinity) (map images : List Row) : List TileRow :=
  map.flatMap fun entry =>
    let id := entry.getD 3 .null
    let row (data : Cell) : TileRow :=
      ⟨entry.getD 0 .null, entry.getD 1 .null, entry.getD 2 .null, data, id⟩
    match imagesOf joined images id with
    | [] => [row .null]
    | found => found.map fun image => row (image.getD 1 .null)

namespace Layout

/-- What is done to the identifiers of the map and of the images where they are compared. -/
def joinedIds (c : Container) : Affinity :=
  (c.affinity "images" "tile_id").joined (c.affinity "map" "tile_id")

/-- The affinity of a column of the key. -/
def keyAffinity (layout : Layout) (c : Container) (column : String) : Affinity :=
  c.affinity layout.keyTable column

/-- The rows of a layout, given orders of the rows of the table of keys and of the images. -/
def rowsIn (layout : Layout) (keyOrder imageOrder : Table → List Row) (c : Container) :
    Except StatementError (List TileRow) :=
  match layout with
  | .flat => do
    let rows ← c.list "tiles" (keyColumns ++ ["tile_data"]) keyOrder
    return rows.map TileRow.ofCells
  | .flatWithHash => do
    let rows ← c.list "tiles_with_hash" (keyColumns ++ ["tile_data", "tile_hash"]) keyOrder
    return rows.map TileRow.ofCells
  | .normalized => do
    let map ← c.list "map" (keyColumns ++ ["tile_id"]) keyOrder
    let images ← c.list "images" ["tile_id", "tile_data"] imageOrder
    return joinedRows (joinedIds c) map images

/-- The rows of a layout in the order in which they were inserted. -/
def rows (layout : Layout) (c : Container) : Except StatementError (List TileRow) :=
  layout.rowsIn Table.rows Table.rows c

end Layout

/-! ### The order of rows -/

/-- A query for tiles. -/
inductive TileQuery
  /-- All tiles in ascending order of keys, within zoom levels or not, with their hashes or not. -/
  | scan (bounded hashed : Bool)
  /-- The tile of one key. -/
  | entry
  deriving DecidableEq

namespace TileQuery

def access (layout : Layout) : TileQuery → Access
  | scan bounded hashed =>
    { equal := []
      bounded := if bounded then ["zoom_level"] else []
      sortedBy := some "zoom_level"
      used := keyColumns ++ match layout with
        | .flat => ["tile_data"]
        | .flatWithHash => if hashed then ["tile_data", "tile_hash"] else ["tile_data"]
        | .normalized => ["tile_id"] }
  | entry =>
    { equal := keyColumns
      bounded := []
      sortedBy := none
      used := keyColumns ++ if layout = .normalized then ["tile_id"] else ["tile_data"] }

/-- Whether a scan of the map goes by a key that holds the identifiers, so that the images can be
looked for without reading the map: the key has to hold something of the order, and the zoom level
if that is bounded. -/
def joinsByKey (t : Table) : TileQuery → Bool
  | scan bounded _ =>
    t.key.contains "tile_id" && keyColumns.any t.key.contains &&
      (!bounded || t.key.contains "zoom_level") &&
        15 * Table.width t.key.length < 14 * Table.width t.columns.length
  | entry => false

/-- The rows of the table of keys in the order in which they are visited. -/
def keyOrder (layout : Layout) (q : TileQuery) (t : Table) : List Row :=
  if layout = .normalized && q.joinsByKey t then t.inKeyOrder else t.visited (q.access layout)

def payloadOrder (images : Table) : List Row :=
  sortBy (images.columnsLe ["tile_data"]) images.rows

/-- The images in the order in which those of one identifier are met: by a key that begins with the
identifier; one after the other, where a single tile is found by its key; and else by an index of
identifiers and payloads that is made for the query. -/
def imageOrder (q : TileQuery) (map : Option Table) (images : Table) : List Row :=
  if images.key.head? = some "tile_id" then images.inKeyOrder
  else if q = .entry && (map.bind (·.key.head?)).any keyColumns.contains then
    images.visited ⟨[], [], none, ["tile_id", "tile_data"]⟩
  else payloadOrder images

end TileQuery

/-- The rows of a layout in the order in which a query visits them. -/
def Layout.visited (layout : Layout) (q : TileQuery) (c : Container) :
    Except StatementError (List TileRow) :=
  layout.rowsIn (q.keyOrder layout) (q.imageOrder (c.table? "map")) c

/-- An open tileset. -/
structure Tileset where
  shape : Shape
  batch : Int
  deriving DecidableEq, Repr

namespace Tileset

def checkBatch (batch : Int) : Except Failure Unit :=
  if -0x80000000 ≤ batch ∧ batch < 0x80000000 then .ok () else .error .outOfRange

/-- The rows that a filter lets through by their zoom level, in ascending order of keys. -/
def rows (t : Tileset) (filter : TileFilter) (hashed : Bool) (file : String) (c : Container) :
    Except Failure (List TileRow) := do
  let layout := t.shape.layout
  let bounds := filter.minZoom.toList ++ filter.maxZoom.toList
  let rows ← onFile file (layout.visited (.scan (!bounds.isEmpty) hashed) c)
  if bounds.all fun n => (Cell.int n).fits then
    checkBatch t.batch
    return sortBy TileRow.keyLe
      (rows.filter (TileRow.withinZoom (layout.keyAffinity c "zoom_level") filter))
  else throw .outOfRange

/-- The key of a row. -/
def rowKey (file : String) (row : TileRow) : Except Failure TileKey :=
  match TileKey.ofCells? row.z row.x row.y with
  | some key => .ok key
  | none => .error (.io (.tileIndex file row.z row.x row.y))

/-- Whether a filter that restricts the area accepts a key; any other filter has been applied to
the rows already. -/
def acceptsArea (filter : TileFilter) (key : TileKey) : Except Failure Bool :=
  if filter.isSpatial then filter.accepts key else .ok true

def readTile (memory : Nat) (filter : TileFilter) (file : String) (row : TileRow) :
    Except Failure (Option Tile) := do
  let key ← rowKey file row
  if ← acceptsArea filter key then
    let data ← payload memory row.data
    return some ⟨key, data⟩
  else return none

def scan (t : Tileset) (filter : TileFilter) (file : String) (c : Container)
    (memory : Nat := usualMemory) : Scan Tile :=
  Scan.ofQuery (t.rows filter false file c) (readTile memory filter file)

def readHashedTile (memory : Nat) (file : String) (row : TileRow) :
    Except Failure (Option (Tile × Cell)) := do
  let key ← rowKey file row
  let data ← payload memory row.data
  return some (⟨key, data⟩, row.stored)

def scanHashed (t : Tileset) (file : String) (c : Container) (memory : Nat := usualMemory) :
    Scan (Tile × Cell) :=
  Scan.ofQuery (t.rows .all true file c) (readHashedTile memory file)

def aggregate (t : Tileset) (file : String) (c : Container) : Except Failure String :=
  (t.scan .all file c).all.map aggregateHash

def entry? (t : Tileset) (key : TileKey) (file : String) (c : Container)
    (memory : Nat := usualMemory) : Except Failure (Option Tile) := do
  let layout := t.shape.layout
  let rows ← onFile file (layout.visited .entry c)
  if key.cells.all Cell.fits then
    match rows.find? (TileRow.hasKey (layout.keyAffinity c) key) with
    | none => return none
    | some row =>
      let data ← payload memory row.data
      return some ⟨key, data⟩
  else throw .outOfRange

def count (t : Tileset) (file : String) (c : Container) : Except Failure Nat := do
  let rows ← onFile file (t.shape.layout.rows c)
  return rows.length

def isEmpty (t : Tileset) (file : String) (c : Container) : Except Failure Bool := do
  let rows ← onFile file (c.select t.shape.layout.keyTable [])
  return rows.isEmpty

/-- What is asked of the table of metadata where it is read as a whole or by a name. -/
def metadataAccess (named : Bool) : Access :=
  { equal := if named then ["name"] else []
    bounded := ["value"]
    sortedBy := none
    used := ["name", "value"] }

/-- The metadata, as pairs of name and value, in the order in which a query visits them. -/
def metadataRows (file : String) (c : Container) (named : Bool) :
    Except Failure (List (Cell × Cell)) := do
  let rows ← onFile file (c.visit "metadata" ["name", "value"] (metadataAccess named))
  return rows.map fun row => (row.getD 0 .null, row.getD 1 .null)

/-- The metadata: every value that is not null, as a text; of a repeated name the last value. -/
def metadata (file : String) (c : Container) : Except Failure Metadata := do
  let rows ← metadataRows file c false
  return .ofEntries ((rows.filter (!·.2.isNull)).map fun (name, value) =>
    (name, .text value.display))

/-- The value of a name in the metadata; of a repeated name the first value. -/
def metadataValue? (name : Cell) (file : String) (c : Container) :
    Except Failure (Option String) := do
  let rows ← metadataRows file c true
  let name := (c.affinity "metadata" "name").keep name
  return (rows.find? fun (n, value) => n.eqv name && !value.isNull).map (·.2.display)

end Tileset

end TileAtlas
