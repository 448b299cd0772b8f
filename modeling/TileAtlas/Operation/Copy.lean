import TileAtlas.Operation.Basic

/-!
# Copying

A copy puts the metadata and the tiles of a source into a destination, which is created with the
layout of the source or the one asked for.  What happens where the destination already holds a
tile or a value is a choice: it is overridden, kept, or a reason to abort if it differs.
-/

namespace TileAtlas

inductive CopyType
  | all
  | tiles
  | metadata
  deriving DecidableEq, Repr

instance : Keyword CopyType where
  title := "CopyType"
  members := [.all, .tiles, .metadata]
  word
    | .all => "all"
    | .tiles => "tiles"
    | .metadata => "metadata"

namespace CopyType

def copiesTiles (t : CopyType) : Bool := t ≠ .metadata

def copiesMetadata (t : CopyType) : Bool := t ≠ .tiles

end CopyType

/-- What happens where the destination already holds a tile or a value. -/
inductive OnDuplicate
  | override
  | ignore
  | abort
  deriving DecidableEq, Repr

instance : Keyword OnDuplicate where
  title := "OnDuplicate"
  members := [.override, .ignore, .abort]
  word
    | .override => "override"
    | .ignore => "ignore"
    | .abort => "abort"

def OnDuplicate.policy : OnDuplicate → MergePolicy
  | override => .overwrite
  | _ => .strict

structure CopyOptions where
  filter : TileFilter
  copyType : CopyType
  onDuplicate : OnDuplicate
  /-- The layout of a new destination; that of the source if none is given. -/
  layout : Option Layout
  deriving DecidableEq

namespace Copy

def layoutNotice (present requested : Layout) : Notice :=
  ⟨.warning, operationSpeaker, "Destination already exists as " ++ Keyword.word present ++
    ", ignoring requested layout " ++ Keyword.word requested⟩

def destination (source : Layout) (requested : Option Layout) (batch : Int) : Action Tileset := do
  if (← get).contents.isEmpty then Tileset.createIn (requested.getD source) batch
  else
    let t ← Tileset.openIn batch
    match requested with
    | some layout =>
      if layout = t.shape.layout then pure ()
      else Action.notify [layoutNotice t.shape.layout layout]
    | none => pure ()
    return t

/-- The changes that add the source's values to the destination, in ascending order of names. -/
def metadataChanges (onDuplicate : OnDuplicate) (source existing : Metadata) :
    Except Failure (List MetadataChange) :=
  match sortNames? source.user.names with
  | none => .error .wrongKind
  | some names => .ok (names.filterMap fun name =>
      if onDuplicate = .ignore ∧ existing.contains name then none
      else (source.get? name).map (.add name))

/-- Copies the metadata of a source and gives the number of values that were taken. -/
def copyMetadata (onDuplicate : OnDuplicate) (source : Except Failure Metadata) : Action Nat := do
  let existing ← Action.query Tileset.metadata
  let source ← Action.ofExcept source
  let changes ← Action.ofExcept (metadataChanges onDuplicate source existing)
  Tileset.merge onDuplicate.policy changes

def staysOut (onDuplicate : OnDuplicate) (tile : Tile) (existing : Option Tile) :
    Except Failure Bool :=
  match onDuplicate, existing with
  | _, none => .ok false
  | .override, some _ => .ok false
  | .ignore, some _ => .ok true
  | .abort, some old =>
    if tileHash old.data = tileHash tile.data then .ok true
    else .error (.fault (.tileConflict tile.key))

/-- Copies one tile; where the destination held tiles before, it is asked for the key. -/
def copyTile (t : Tileset) (onDuplicate : OnDuplicate) (checkExisting : Bool) (tile : Tile) :
    Action Unit := do
  Action.count fun c => { c with read := c.read + 1 }
  let existing ← if checkExisting then Action.query (t.entry? tile.key) else pure none
  if ← Action.ofExcept (staysOut onDuplicate tile existing) then
    Action.count fun c => { c with skipped := c.skipped + 1 }
  else
    t.put tile.key tile.data
    Action.count fun c => { c with written := c.written + 1 }

def copyEach (t : Tileset) (onDuplicate : OnDuplicate) (checkExisting : Bool) :
    List Tile → Action Unit
  | [] => pure ()
  | tile :: rest => do
    copyTile t onDuplicate checkExisting tile
    copyEach t onDuplicate checkExisting rest

def copyTiles (t : Tileset) (onDuplicate : OnDuplicate) (source : Scan Tile) : Action Unit := do
  let empty ← Action.query t.isEmpty
  copyEach t onDuplicate (!empty) source.items
  let _ ← Action.ofExcept source.all
  let _ ← t.finalize
  let hash ← Action.query t.aggregate
  Action.note fun account => { account with aggHash := .text hash }
  Tileset.putMetadata (.text aggHashName) (.text hash)

def copyInto (options : CopyOptions) (batch : Int) (source : Shape)
    (metadata : Except Failure Metadata) (tiles : Scan Tile) : Action Unit := do
  let t ← destination source.layout options.layout batch
  if options.copyType.copiesMetadata then
    let taken ← copyMetadata options.onDuplicate metadata
    Action.note fun account => { account with metadataChanges := taken }
  if options.copyType.copiesTiles then
    copyTiles t options.onDuplicate tiles

def body (options : CopyOptions) (batch : Int) (source destination : PathName) :
    Operation Unit := do
  if (← get).files.sameEntry source destination then
    throw (.io (.sourceIsDestination source.text))
  let contents ← Operation.readContainer source
  Operation.onCreated destination do
    let shape ← Action.ofExcept (detect source.text contents)
    let t : Tileset := ⟨shape, batch⟩
    Action.transaction (copyInto options batch shape (Tileset.metadata source.text contents)
      (t.scan options.filter source.text contents))

end Copy

def copy (options : CopyOptions) (batch : Int) (source destination : PathName)
    (files : Workspace) : Outcome :=
  let created := if files.contains destination then none else some destination
  runOperation "copy" created (Copy.body options batch source destination) files

end TileAtlas
