import TileAtlas.Metadata.Merge
import TileAtlas.Tileset.Images

/-!
# Writing tiles and metadata

The store operations do the same to every layout: a tile is put at a key in place of the one that
was there, or deleted, and a value is put under a name of the metadata or removed.  Images that no
tile refers to stay until `finalize` drops them, so that later tiles may still use them.
-/

namespace TileAtlas.Tileset

/-- A fresh view of an open container as a tileset; what an earlier view knew of the images is
forgotten. -/
def attach (shape : Shape) (batch : Int) : Action Tileset := do
  modify fun session => { session with images := none }
  return ⟨shape, batch⟩

def openIn (batch : Int) : Action Tileset := do
  let shape ← Action.query detect
  attach shape batch

def createIn (layout : Layout) (batch : Int) : Action Tileset := do
  let shape ← layout.create
  attach shape batch

def keyConditions (key : TileKey) : List (String × Cell) :=
  keyColumns.zip key.cells

def delete (t : Tileset) (key : TileKey) : Action Bool := do
  let touched ← Action.execute (.delete t.shape.layout.keyTable (keyConditions key))
  return 0 < touched

def tileColumns (t : Tileset) (data : Option Bytes) : Action (List (String × Cell)) :=
  match t.shape.layout with
  | .flat => return [("tile_data", .ofPayload data)]
  | .flatWithHash =>
    return [("tile_data", .ofPayload data), ("tile_hash", .ofText? (tileHash data))]
  | .normalized =>
    match data with
    | none => return [("tile_id", .null)]
    | some bytes => do
      let id ← t.imageFor bytes
      return [("tile_id", id)]

/-- Puts a tile at a key; without a payload it is a null tile. -/
def put (t : Tileset) (key : TileKey) (data : Option Bytes) : Action Unit := do
  let _ ← t.delete key
  let columns ← t.tileColumns data
  let _ ← Action.execute (.insert t.shape.layout.keyTable (keyConditions key ++ columns))

def finalize (t : Tileset) : Action Nat := do
  if t.shape.layout = .normalized then
    let dropped ← Action.execute (.deleteUnlisted "images" "tile_id" "map" "tile_id")
    if 0 < dropped then modify fun session => { session with images := none }
    return dropped
  else return 0

/-- The number of digests in the index of images; other layouts have no such index. -/
def imageCount? (t : Tileset) : Action (Option Nat) := do
  if t.shape.layout = .normalized then
    let index ← t.imageIndex
    return some index.length
  else return none

/-- Puts a value under a name of the metadata; null removes the name. -/
def putMetadata (name value : Cell) : Action Unit := do
  let _ ← Action.execute (.delete "metadata" [("name", name)])
  if !value.isNull then
    let _ ← Action.execute (.insert "metadata" [("name", name), ("value", value)])

def putAll (t : Tileset) : List Tile → Action Unit
  | [] => pure ()
  | tile :: rest => do
    t.put tile.key tile.data
    t.putAll rest

def putAllMetadata : List (Cell × Cell) → Action Unit
  | [] => pure ()
  | (name, value) :: rest => do
    putMetadata name value
    putAllMetadata rest

/-- Makes some changes to the metadata, whose state before each change is given, and gives the
number of changes that were taken. -/
def mergeFrom (policy : MergePolicy) (current : Metadata) : List MetadataChange → Action Nat
  | [] => return 0
  | change :: rest => do
    Action.notify change.notices
    match change.resolve policy (current.get? change.name) with
    | .error fault => throw (.fault fault)
    | .ok false => mergeFrom policy current rest
    | .ok true =>
      putMetadata change.name change.value
      let taken ← mergeFrom policy (change.applyTo current) rest
      return taken + 1

/-- Makes some changes to the metadata and gives the number of changes that were taken. -/
def merge (policy : MergePolicy) (changes : List MetadataChange) : Action Nat := do
  let current ← Action.query metadata
  mergeFrom policy current changes

end TileAtlas.Tileset
