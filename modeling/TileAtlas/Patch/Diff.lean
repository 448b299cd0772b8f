import TileAtlas.Delta.Differ
import TileAtlas.Metadata.Diff
import TileAtlas.Patch.Record

/-!
# The difference of two tilesets

Two streams of tiles in ascending order of keys are walked side by side: a key that only the base
has is removed, one that only the target has is added, and one that both have is changed if the
tile hashes differ.  A change is written as a delta where that is asked for and saves space.
-/

namespace TileAtlas

namespace Scan

/-- The failure of a stream whose keys are out of order.  The message names both keys. -/
def orderFailure (label : String) (key after : TileKey) : Failure :=
  if key.isWritable && after.isWritable then .io (.order label key after)
  else .invalid .tooManyDigits

def ascendingFrom (label : String) (failure : Option Failure) :
    Option TileKey → List Tile → Scan Tile
  | _, [] => ⟨[], failure⟩
  | none, tile :: rest => cons tile (ascendingFrom label failure (some tile.key) rest)
  | some previous, tile :: rest =>
    if previous < tile.key then cons tile (ascendingFrom label failure (some tile.key) rest)
    else fail (orderFailure label tile.key previous)

def ascending (label : String) (s : Scan Tile) : Scan Tile :=
  ascendingFrom label s.failure none s.items

end Scan

def changeRecord (differ : Differ) (patchType : PatchType) (old new : Tile) :
    Except Failure PatchRecord :=
  match patchType, old.data, new.data with
  | .delta, some oldData, some newData =>
    match differ.diff oldData newData with
    | .error failure => .error failure
    | .ok delta =>
      if delta.size < newData.size then .ok (.changedBy new.key delta newData)
      else .ok (.full .change new)
  | _, _, _ => .ok (.full .change new)

def additions (baseFailure targetFailure : Option Failure) : List Tile → Scan PatchRecord
  | [] => ⟨[], baseFailure <|> targetFailure⟩
  | new :: news =>
    match baseFailure with
    | some failure => .fail failure
    | none => .cons (.full .add new) (additions none targetFailure news)

/-- The records from a tile of the base on, where `next` gives the records after that tile for the
tiles of the target that are left then. -/
def recordsFrom (differ : Differ) (patchType : PatchType) (targetFailure : Option Failure)
    (old : Tile) (next : List Tile → Scan PatchRecord) : List Tile → Scan PatchRecord
  | [] =>
    match targetFailure with
    | some failure => .fail failure
    | none => .cons (.removed old.key) (next [])
  | new :: news =>
    if old.key < new.key then .cons (.removed old.key) (next (new :: news))
    else if new.key < old.key then
      .cons (.full .add new) (recordsFrom differ patchType targetFailure old next news)
    else if tileHash old.data = tileHash new.data then next news
    else match changeRecord differ patchType old new with
      | .error failure => .fail failure
      | .ok record => .cons record (next news)

/-- Walks two streams side by side.  A stream that has failed ends the walk where its next tile is
asked for, the base first. -/
def walkRecords (differ : Differ) (patchType : PatchType)
    (baseFailure targetFailure : Option Failure) : List Tile → List Tile → Scan PatchRecord
  | [] => additions baseFailure targetFailure
  | old :: olds =>
    recordsFrom differ patchType targetFailure old
      (walkRecords differ patchType baseFailure targetFailure olds)

def diffRecords (differ : Differ) (patchType : PatchType) (base target : Scan Tile) :
    Scan PatchRecord :=
  let base := base.ascending "base"
  let target := target.ascending "target"
  walkRecords differ patchType base.failure target.failure base.items target.items

/-- What a tileset shows of itself: its tiles and its metadata. -/
structure TileSource where
  tiles : Scan Tile
  metadata : Except Failure Metadata

def DeltaSet.between (differ : Differ) (patchType : PatchType) (base target : TileSource) :
    Except Failure DeltaSet := do
  let before ← base.tiles.all
  let after ← target.tiles.all
  let records ← (diffRecords differ patchType base.tiles target.tiles).all
  let baseMetadata ← base.metadata
  let targetMetadata ← target.metadata
  let changes ← baseMetadata.diff targetMetadata
  return {
    before := .text (aggregateHash before)
    after := .text (aggregateHash after)
    patchType
    metadataChanges := changes
    records := .ofList records }

end TileAtlas
