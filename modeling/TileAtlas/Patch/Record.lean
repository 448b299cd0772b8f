import TileAtlas.Container.Scan
import TileAtlas.Metadata.Change
import TileAtlas.Tile.Hash

/-!
# Patch records

A patch record says what becomes of one tile.  A removal has no encoding; a delta can only stand
for a change and has to be there; any other record carries its payload in full.
-/

namespace TileAtlas

inductive PatchType
  | whole
  | delta
  deriving DecidableEq, Repr

instance : Keyword PatchType where
  title := "PatchType"
  members := [.whole, .delta]
  word
    | .whole => "whole"
    | .delta => "bin-diff-raw"

inductive PatchAction
  | add
  | change
  | remove
  deriving DecidableEq, Repr

instance : Keyword PatchAction where
  title := "PatchAction"
  members := [.add, .change, .remove]
  word
    | .add => "add"
    | .change => "change"
    | .remove => "remove"

inductive PatchEncoding
  | full
  | delta
  | absent
  deriving DecidableEq, Repr

instance : Keyword PatchEncoding where
  title := "PatchEncoding"
  members := [.full, .delta, .absent]
  word
    | .full => "full"
    | .delta => "delta"
    | .absent => "none"

structure PatchRecord where
  key : TileKey
  action : PatchAction
  encoding : PatchEncoding
  tileData : Option Bytes
  patchData : Option Bytes
  /-- The hash that the tile should have afterwards: the tile hash of a payload in full, the check
  hash of the outcome of a delta. -/
  resultHash : Cell
  deriving DecidableEq

namespace PatchRecord

def problem? (key : TileKey) (action : PatchAction) (encoding : PatchEncoding)
    (patchData : Option Bytes) : Option Invalid :=
  match action, encoding with
  | .remove, .absent => none
  | .remove, _ => some (.encodingOnRemoval key)
  | .change, .delta => if patchData.isSome then none else some (.deltaMisplaced key)
  | _, .delta => some (.deltaMisplaced key)
  | _, .full => none
  | _, .absent => some (.encodingMissing (Keyword.word action) key)

def build (key : TileKey) (action : PatchAction) (encoding : PatchEncoding)
    (tileData patchData : Option Bytes) (resultHash : Cell) : Except Invalid PatchRecord :=
  match problem? key action encoding patchData with
  | none => .ok ⟨key, action, encoding, tileData, patchData, resultHash⟩
  | some why => .error why

def removed (key : TileKey) : PatchRecord := ⟨key, .remove, .absent, none, none, .null⟩

def full (action : PatchAction) (tile : Tile) : PatchRecord :=
  ⟨tile.key, action, .full, tile.data, none, .ofText? (tileHash tile.data)⟩

def changedBy (key : TileKey) (delta data : Bytes) : PatchRecord :=
  ⟨key, .change, .delta, none, some delta, .text (checkHash data)⟩

end PatchRecord

/-- A whole patch: the aggregate hashes before and after, the changes to the metadata and the
records of tiles. -/
structure DeltaSet where
  before : Cell
  after : Cell
  patchType : PatchType
  metadataChanges : List MetadataChange
  records : Scan PatchRecord
  deriving DecidableEq

end TileAtlas
