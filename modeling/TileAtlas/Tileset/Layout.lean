import TileAtlas.Container.Session

/-!
# Layouts

A tileset is kept in a container in one of three layouts: the tiles in one table; the tiles with
their hashes in one table; or the keys in one table and the payloads, each stored once, in
another.  `Layout.statements` creates a layout, and `detect` tells which one a container has from
its tables and their columns alone.
-/

namespace TileAtlas

/-- How a container keeps tiles. -/
inductive Layout
  | flat
  | flatWithHash
  | normalized
  deriving DecidableEq, Repr

instance : Keyword Layout where
  title := "MbtType"
  members := [.flat, .flatWithHash, .normalized]
  word
    | .flat => "flat"
    | .flatWithHash => "flat-with-hash"
    | .normalized => "normalized"

/-- What a container's catalogue shows of its layout. -/
structure Shape where
  layout : Layout
  /-- Whether a normalized container also offers its tiles with their hashes in one view. -/
  hashView : Bool
  deriving DecidableEq, Repr

namespace Shape

def hasStoredHash (s : Shape) : Bool := s.layout ≠ .flat

def text (s : Shape) : String :=
  if s.layout = .normalized && s.hashView then Keyword.word s.layout ++ " (with hash view)"
  else Keyword.word s.layout

end Shape

def keyColumns : List String := ["zoom_level", "tile_column", "tile_row"]

namespace Layout

def metadataTable : Table :=
  ⟨"metadata", [.word "name" true, .word "value" false], ["name"], []⟩

def keyedTable (name : String) (columns : List Column) : Table :=
  ⟨name, keyColumns.map .number ++ columns, keyColumns, []⟩

def tilesView (source : String) : View := ⟨"tiles", keyColumns ++ ["tile_data"], source⟩

def hashedTilesView (source : String) : View :=
  ⟨"tiles_with_hash", keyColumns ++ ["tile_data", "tile_hash"], source⟩

def imagesTable : Table :=
  ⟨"images", [.payload "tile_data", .word "tile_id" true], ["tile_id"], []⟩

def statements : Layout → List Statement
  | flat =>
    [.createTable metadataTable, .createTable (keyedTable "tiles" [.payload "tile_data"])]
  | flatWithHash =>
    [.createTable metadataTable,
      .createTable (keyedTable "tiles_with_hash" [.payload "tile_data", .word "tile_hash" false]),
      .createView (tilesView "tiles_with_hash")]
  | normalized =>
    [.createTable metadataTable,
      .createTable (keyedTable "map" [.word "tile_id" false]),
      .createTable imagesTable,
      .createView (tilesView "map"),
      .createView (hashedTilesView "map")]

def shape (layout : Layout) : Shape := ⟨layout, layout = .normalized⟩

def keyTable : Layout → String
  | flat => "tiles"
  | flatWithHash => "tiles_with_hash"
  | normalized => "map"

def create (layout : Layout) : Action Shape := do
  let session ← get
  if session.contents.isEmpty then
    Action.executeAll layout.statements
    return layout.shape
  else throw (.io (.occupiedForLayout session.file (Keyword.word layout)))

end Layout

/-- Whether a container has a table or a view of a name with at least the given columns. -/
def offers (c : Container) (name : String) (kind : ObjectKind) (columns : List String) :
    Except StatementError Bool :=
  if c.objectKind? name = some kind then do
    let present ← c.columnNames name
    return columns.all present.contains
  else .ok false

def offersNormalized (c : Container) : Except StatementError Bool := do
  if ← offers c "map" .table (keyColumns ++ ["tile_id"]) then
    offers c "images" .table ["tile_data", "tile_id"]
  else return false

/-- The layout of a container's tiles, as its catalogue shows it.  The more specific layouts are
tried first, since their containers also offer their tiles in the form of the plain one. -/
def shape? (c : Container) : Except StatementError (Option Shape) := do
  if ← offersNormalized c then
    let hashView ← offers c "tiles_with_hash" .view (keyColumns ++ ["tile_data", "tile_hash"])
    return some ⟨.normalized, hashView⟩
  else if ← offers c "tiles_with_hash" .table (keyColumns ++ ["tile_data", "tile_hash"]) then
    return some ⟨.flatWithHash, false⟩
  else if ← offers c "tiles" .table (keyColumns ++ ["tile_data"]) then
    return some ⟨.flat, false⟩
  else return none

def onFile {α : Type} (file : String) : Except StatementError α → Except Failure α
  | .ok a => .ok a
  | .error why => .error (.io (.statement file why))

def detect (file : String) (c : Container) : Except Failure Shape := do
  if ← onFile file (offers c "metadata" .table ["name", "value"]) then
    match ← onFile file (shape? c) with
    | some shape => return shape
    | none => throw (.schema (.layoutUnknown file))
  else throw (.schema (.metadataMissing file))

end TileAtlas
