import TileAtlas.Tileset.Store

/-!
# Validation

A tileset is valid if every stored hash is the hash of its payload and the stored aggregate hash
is the aggregate hash of its tiles.  Instead of being verified the aggregate hash may be brought
up to date, or left alone.
-/

namespace TileAtlas

/-- How far the container itself is checked.  A container that can be read always passes. -/
inductive IntegrityCheck
  | off
  | quick
  | full
  deriving DecidableEq, Repr

instance : Keyword IntegrityCheck where
  title := "IntegrityCheck"
  members := [.off, .quick, .full]
  word
    | .off => "off"
    | .quick => "quick"
    | .full => "full"

/-- What is done about the aggregate hash. -/
inductive AggHashMode
  | off
  | verify
  | update
  deriving DecidableEq, Repr

instance : Keyword AggHashMode where
  title := "AggHashMode"
  members := [.off, .verify, .update]
  word
    | .off => "off"
    | .verify => "verify"
    | .update => "update"

structure ValidationReport where
  file : String
  shape : Shape
  integrity : IntegrityCheck
  tilesChecked : Nat
  stored : Option String
  computed : String
  updated : Bool
  deriving DecidableEq, Repr

namespace Tileset

/-- Whether the hash stored for a tile is the hash of its payload but for the case of letters. -/
def hashAgrees (tile : Tile) (stored : Cell) : Bool :=
  (if stored.isNull then none else some (Text.upper stored.display)) == tileHash tile.data

def checkHashes : List (Tile × Cell) → Except Failure (List Tile)
  | [] => .ok []
  | (tile, stored) :: rest =>
    if hashAgrees tile stored then do
      let tiles ← checkHashes rest
      return tile :: tiles
    else .error (.fault (.corruptTile tile.key stored (.ofText? (tileHash tile.data))))

/-- All tiles in ascending order of keys, provided the stored hashes agree with the payloads. -/
def checkedTiles (t : Tileset) (file : String) (c : Container) : Except Failure (List Tile) := do
  let scan := t.scanHashed file c
  let tiles ←
    if t.shape.hasStoredHash then checkHashes scan.items else .ok (scan.items.map (·.1))
  let _ ← scan.all
  return tiles

def nothingToVerify (file : String) : Notice :=
  ⟨.warning, "tilesync.components.mbtiles.validation",
    file ++ " has no " ++ aggHashName ++ " to verify against"⟩

def settleAggHash (mode : AggHashMode) (stored : Option String) (computed : String) :
    Action Bool := do
  match mode, stored with
  | .off, _ => return false
  | .verify, none =>
    Action.notify [nothingToVerify (← get).file]
    return false
  | .verify, some hash =>
    if Text.upper hash = computed then return false
    else throw (.fault (.aggHashMismatch (.text hash) (.text computed)))
  | .update, stored =>
    if stored = some computed then return false
    else
      putMetadata (.text aggHashName) (.text computed)
      return true

/-- Validates an open tileset; the first fault found ends the validation. -/
def validate (t : Tileset) (integrity : IntegrityCheck) (mode : AggHashMode) :
    Action ValidationReport := do
  let stored ← Action.query (metadataValue? (.text aggHashName))
  let tiles ← Action.query t.checkedTiles
  let computed := aggregateHash tiles
  let updated ← settleAggHash mode stored computed
  return ⟨(← get).file, t.shape, integrity, tiles.length, stored, computed, updated⟩

end Tileset

end TileAtlas
