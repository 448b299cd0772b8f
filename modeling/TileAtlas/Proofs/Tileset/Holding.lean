import TileAtlas.Proofs.Container.Table
import TileAtlas.Proofs.Tile.Order
import TileAtlas.Tileset.Store

/-!
# What a container of the library holds

A container that a layout was created in and that only the store operations have changed is
determined by its tiles, its metadata and, if it is normalized, its images.  `Layout.container`
writes such a holding out as tables.
-/

namespace TileAtlas

/-- Tiles, images and metadata in the order in which they are stored. -/
structure Holding where
  tiles : List Tile
  images : List Bytes
  metadata : List (String × String)

namespace Holding

def empty : Holding := ⟨[], [], []⟩

/-- Whether some tile has the hash of an image. -/
def uses (h : Holding) (data : Bytes) : Bool :=
  h.tiles.any fun tile => tileHash tile.data = some (payloadHash data)

/-- Without the tile at a key. -/
def delete (h : Holding) (key : TileKey) : Holding :=
  { h with tiles := h.tiles.filter fun tile => !decide (tile.key = key) }

/-- The payload that is found again after a payload has been put: in a normalized container that of
the image with the same hash, if there was one. -/
def kept (h : Holding) (layout : Layout) (data : Bytes) : Bytes :=
  if layout = .normalized then
    (h.images.find? fun image => payloadHash image = payloadHash data).getD data
  else data

/-- With an image, unless there is one with the same hash. -/
def store (h : Holding) (layout : Layout) (data : Bytes) : Holding :=
  if layout = .normalized ∧ payloadHash data ∉ h.images.map payloadHash then
    { h with images := h.images ++ [data] }
  else h

/-- With a tile at a key in place of the one that was there. -/
def put (h : Holding) (layout : Layout) (key : TileKey) (data : Option Bytes) : Holding :=
  let stored := data.elim (h.delete key) ((h.delete key).store layout)
  { stored with tiles := stored.tiles ++ [⟨key, data.map (h.kept layout)⟩] }

/-- Without the images that no tile uses. -/
def finalize (h : Holding) : Holding := { h with images := h.images.filter h.uses }

/-- Without a name of the metadata. -/
def erase (h : Holding) (name : String) : Holding :=
  { h with metadata := h.metadata.filter fun entry => !decide (entry.1 = name) }

/-- With a value under a name of the metadata, or without the name. -/
def putMetadata (h : Holding) (name : String) (value : Option String) : Holding :=
  let rest := h.erase name
  { rest with metadata := rest.metadata ++ (value.map (name, ·)).toList }

end Holding

namespace Layout

/-! ### Tiles -/

def tileColumns : Layout → List Column
  | flat => [.payload "tile_data"]
  | flatWithHash => [.payload "tile_data", .word "tile_hash" false]
  | normalized => [.word "tile_id" false]

def tileRow : Layout → Tile → Row
  | flat, tile => tile.key.cells ++ [.ofPayload tile.data]
  | flatWithHash, tile => tile.key.cells ++ [.ofPayload tile.data, .ofText? (tileHash tile.data)]
  | normalized, tile => tile.key.cells ++ [.ofText? (tileHash tile.data)]

/-- The cells that the row of a tile has besides its key. -/
def tileCells : Layout → Option Bytes → List (String × Cell)
  | flat, data => [("tile_data", .ofPayload data)]
  | flatWithHash, data => [("tile_data", .ofPayload data), ("tile_hash", .ofText? (tileHash data))]
  | normalized, data => [("tile_id", .ofText? (tileHash data))]

def tilesTable (layout : Layout) (tiles : List Tile) : Table :=
  { keyedTable layout.keyTable layout.tileColumns with rows := tiles.map layout.tileRow }

theorem agrees_tileRow (layout : Layout) (tiles : List Tile) (key : TileKey) (tile : Tile) :
    (layout.tilesTable tiles).agrees (Tileset.keyConditions key) (layout.tileRow tile) =
      decide (tile.key = key) := by
  rw [Bool.eq_iff_iff, decide_eq_true_iff, TileKey.eq_iff]
  cases layout <;>
    simp [Table.agrees, Tileset.keyConditions, keyColumns, TileKey.cells, tilesTable, keyedTable,
      tileRow, Table.cell, Table.position?, Column.number, Affinity.keep, List.findIdx?_cons,
      Int.natCast_inj]

theorem sameKey_tileRow (layout : Layout) (tiles : List Tile) (a b : Tile) :
    (layout.tilesTable tiles).sameKey (layout.tileRow a) (layout.tileRow b) =
      decide (a.key = b.key) := by
  rw [Bool.eq_iff_iff, decide_eq_true_iff, TileKey.eq_iff]
  cases layout <;>
    simp [Table.sameKey, keyColumns, TileKey.cells, tilesTable, keyedTable, tileRow, Table.cell,
      Table.position?, Column.number, List.findIdx?_cons, Int.natCast_inj]

theorem missingColumn?_tileRow (layout : Layout) (tiles : List Tile) (tile : Tile) :
    (layout.tilesTable tiles).missingColumn? (layout.tileRow tile) = none := by
  cases layout <;>
    simp [Table.missingColumn?, keyColumns, TileKey.cells, tilesTable, keyedTable, tileRow,
      tileColumns, Table.cell, Table.position?, Column.number, Column.word, Column.payload,
      Cell.isNull, List.findIdx?_cons]

theorem rowOf_tilesTable (layout : Layout) (tiles : List Tile) (tile : Tile) :
    (layout.tilesTable tiles).rowOf
      (Tileset.keyConditions tile.key ++ layout.tileCells tile.data) = layout.tileRow tile := by
  obtain ⟨key, data⟩ := tile
  cases layout <;> cases data <;> rfl

theorem delete_tilesTable (layout : Layout) (tiles : List Tile) (key : TileKey) :
    (layout.tilesTable tiles).delete
        ((layout.tilesTable tiles).agrees (Tileset.keyConditions key)) =
      layout.tilesTable (tiles.filter fun tile => !decide (tile.key = key)) :=
  Table.delete_map rfl fun tile _ => agrees_tileRow layout tiles key tile

theorem insert_tilesTable (layout : Layout) {tiles : List Tile} {tile : Tile}
    (hnew : ∀ old ∈ tiles, old.key ≠ tile.key) :
    (layout.tilesTable tiles).insert (layout.tileRow tile) =
      .ok (layout.tilesTable (tiles ++ [tile])) := by
  refine Table.insert_map (missingColumn?_tileRow layout tiles tile) rfl fun old hold => ?_
  rw [sameKey_tileRow]
  exact decide_eq_false (hnew old hold).symm

/-! ### Images -/

def imageRow (data : Bytes) : Row := [.blob data, .text (payloadHash data)]

def imagesTableOf (images : List Bytes) : Table :=
  { imagesTable with rows := images.map imageRow }

theorem sameKey_imageRow (images : List Bytes) (a b : Bytes) :
    (imagesTableOf images).sameKey (imageRow a) (imageRow b) =
      decide (payloadHash a = payloadHash b) := by
  simp [Table.sameKey, imagesTableOf, imagesTable, imageRow, Table.cell, Table.position?,
    Column.word, Column.payload, List.findIdx?_cons]

theorem missingColumn?_imageRow (images : List Bytes) (data : Bytes) :
    (imagesTableOf images).missingColumn? (imageRow data) = none := by
  simp [Table.missingColumn?, imagesTableOf, imagesTable, imageRow, Table.cell, Table.position?,
    Column.word, Column.payload, Cell.isNull, List.findIdx?_cons]

theorem rowOf_imagesTable (images : List Bytes) (data : Bytes) :
    (imagesTableOf images).rowOf
      [("tile_id", .text (payloadHash data)), ("tile_data", .blob data)] = imageRow data := rfl

theorem insert_imagesTable {images : List Bytes} {data : Bytes}
    (hnew : payloadHash data ∉ images.map payloadHash) :
    (imagesTableOf images).insert (imageRow data) = .ok (imagesTableOf (images ++ [data])) := by
  refine Table.insert_map (missingColumn?_imageRow images data) rfl fun old hold => ?_
  rw [sameKey_imageRow]
  exact decide_eq_false fun heq => hnew (List.mem_map.2 ⟨old, hold, heq.symm⟩)

/-! ### Metadata -/

def metadataRow (entry : String × String) : Row := [.text entry.1, .text entry.2]

def metadataTableOf (entries : List (String × String)) : Table :=
  { metadataTable with rows := entries.map metadataRow }

theorem agrees_metadataRow (entries : List (String × String)) (name : String)
    (entry : String × String) :
    (metadataTableOf entries).agrees [("name", .text name)] (metadataRow entry) =
      decide (entry.1 = name) := by
  simp [Table.agrees, metadataTableOf, metadataTable, metadataRow, Table.cell, Table.position?,
    Column.word, Affinity.keep, List.findIdx?_cons]

theorem sameKey_metadataRow (entries : List (String × String)) (a b : String × String) :
    (metadataTableOf entries).sameKey (metadataRow a) (metadataRow b) = decide (a.1 = b.1) := by
  simp [Table.sameKey, metadataTableOf, metadataTable, metadataRow, Table.cell, Table.position?,
    Column.word, List.findIdx?_cons]

theorem missingColumn?_metadataRow (entries : List (String × String)) (entry : String × String) :
    (metadataTableOf entries).missingColumn? (metadataRow entry) = none := by
  simp [Table.missingColumn?, metadataTableOf, metadataTable, metadataRow, Table.cell,
    Table.position?, Column.word, Cell.isNull, List.findIdx?_cons]

theorem rowOf_metadataTable (entries : List (String × String)) (name value : String) :
    (metadataTableOf entries).rowOf [("name", .text name), ("value", .text value)] =
      metadataRow (name, value) := rfl

theorem delete_metadataTable (entries : List (String × String)) (name : String) :
    (metadataTableOf entries).delete ((metadataTableOf entries).agrees [("name", .text name)]) =
      metadataTableOf (entries.filter fun entry => !decide (entry.1 = name)) :=
  Table.delete_map rfl fun entry _ => agrees_metadataRow entries name entry

theorem insert_metadataTable {entries : List (String × String)} {entry : String × String}
    (hnew : ∀ old ∈ entries, old.1 ≠ entry.1) :
    (metadataTableOf entries).insert (metadataRow entry) =
      .ok (metadataTableOf (entries ++ [entry])) := by
  refine Table.insert_map (missingColumn?_metadataRow entries entry) rfl fun old hold => ?_
  rw [sameKey_metadataRow]
  exact decide_eq_false (hnew old hold).symm

/-! ### Containers -/

def views : Layout → List View
  | flat => []
  | flatWithHash => [tilesView "tiles_with_hash"]
  | normalized => [tilesView "map", hashedTilesView "map"]

/-- The container that keeps a holding in a layout. -/
def container (layout : Layout) (h : Holding) : Container where
  tables := metadataTableOf h.metadata :: layout.tilesTable h.tiles ::
    if layout = normalized then [imagesTableOf h.images] else []
  views := layout.views

variable {layout : Layout} {h : Holding}

theorem table?_metadata :
    (layout.container h).table? "metadata" = some (metadataTableOf h.metadata) := by
  cases layout <;> rfl

theorem table?_tiles :
    (layout.container h).table? layout.keyTable = some (layout.tilesTable h.tiles) := by
  cases layout <;> rfl

theorem table?_images :
    (normalized.container h).table? "images" = some (imagesTableOf h.images) := rfl

theorem setTable_metadata (metadata : List (String × String)) :
    (layout.container h).setTable (metadataTableOf metadata) =
      layout.container { h with metadata } := by
  cases layout <;> rfl

theorem setTable_tiles (tiles : List Tile) :
    (layout.container h).setTable (layout.tilesTable tiles) =
      layout.container { h with tiles } := by
  cases layout <;> rfl

theorem setTable_images (images : List Bytes) :
    (normalized.container h).setTable (imagesTableOf images) =
      normalized.container { h with images } := rfl

end Layout

end TileAtlas
