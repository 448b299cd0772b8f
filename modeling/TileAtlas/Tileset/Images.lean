import TileAtlas.Tileset.Rows

/-!
# The images of a normalized container

Payloads of a normalized container are images, stored once under an identifier.  The index leads
from a digest in capital letters to the identifier as it is stored, so that an image that was
stored under a digest in small letters is found as well.  The index is made when it is first
needed and kept up to date from then on; it is forgotten when images are dropped.
-/

namespace TileAtlas

namespace ImageIndex

def set (digest : String) (id : Cell) : ImageIndex → ImageIndex
  | [] => [(digest, id)]
  | entry :: rest =>
    if entry.1 = digest then (digest, id) :: rest else entry :: set digest id rest

/-- The index of identifiers; of two that differ only in case, the last one counts. -/
def ofIds (ids : List Cell) : ImageIndex :=
  ids.foldl (fun index id => set (Text.upper id.display) id index) []

def find? (index : ImageIndex) (digest : String) : Option Cell :=
  index.lookup (Text.upper digest)

end ImageIndex

namespace Tileset

/-- The image identifiers that are not null, in the order in which they are read. -/
def imageIds (file : String) (c : Container) : Except Failure (List Cell) := do
  let rows ← onFile file (c.visit "images" ["tile_id"] ⟨[], ["tile_id"], none, ["tile_id"]⟩)
  return (rows.map (·.getD 0 .null)).filter (!·.isNull)

def imageIndex (t : Tileset) : Action ImageIndex := do
  match (← get).images with
  | some index => return index
  | none =>
    let ids ← Action.query imageIds
    Action.ofExcept (checkBatch t.batch)
    let index := ImageIndex.ofIds ids
    modify fun session => { session with images := some index }
    return index

/-- The identifier under which an image with a digest is stored, if there is one. -/
def lookupImage (t : Tileset) (digest : String) : Action (Option Cell) := do
  let index ← t.imageIndex
  return index.find? digest

/-- The identifier of the image that holds a payload; the image is stored if it is new. -/
def imageFor (t : Tileset) (data : Bytes) : Action Cell := do
  let digest := payloadHash data
  match ← t.lookupImage digest with
  | some id => return id
  | none =>
    let id := Cell.text digest
    let _ ← Action.execute (.insert "images" [("tile_id", id), ("tile_data", .blob data)])
    let index ← t.imageIndex
    modify fun session => { session with images := some (index.set digest id) }
    return id

end Tileset

end TileAtlas
