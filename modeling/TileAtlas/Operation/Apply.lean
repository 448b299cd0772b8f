import TileAtlas.Operation.Basic
import TileAtlas.Patch.Apply
import TileAtlas.Patch.File

/-!
# Applying a patch file

A patch file is applied to its base in place, or to a copy of the base in a new file.
-/

namespace TileAtlas

namespace ApplyPatch

def applyCounting (delta : DeltaSet) (differ : Differ) (policy : MergePolicy) (t : Tileset) :
    Action Unit := do
  let counters ← delta.applyTo differ policy t
  Action.note fun account => { account with tiles := counters }

def copyBase (layout : Layout) (batch : Int) (metadata : Except Failure Metadata)
    (tiles : Scan Tile) : Action Tileset := do
  let t ← Tileset.createIn layout batch
  let metadata ← Action.ofExcept metadata
  Tileset.putAllMetadata metadata.entries
  t.putAll tiles.items
  let _ ← Action.ofExcept tiles.all
  return t

def inPlace (delta : DeltaSet) (differ : Differ) (policy : MergePolicy) (batch : Int)
    (base : PathName) : Operation Unit :=
  Operation.onExisting base true do
    let t ← Tileset.openIn batch
    Action.transaction (applyCounting delta differ policy t)

def intoCopy (delta : DeltaSet) (differ : Differ) (policy : MergePolicy) (batch : Int)
    (base patch destination : PathName) : Operation Unit := do
  let files := (← get).files
  if files.contains destination then throw (.io (.destinationExists destination.text))
  if files.sameEntry base patch then throw (.io (.baseIsPatch base.text))
  let contents ← Operation.readContainer base
  Operation.onCreated destination do
    let shape ← Action.ofExcept (detect base.text contents)
    let source : Tileset := ⟨shape, batch⟩
    Action.transaction do
      let t ← copyBase shape.layout batch (Tileset.metadata base.text contents)
        (source.scan .all base.text contents)
      applyCounting delta differ policy t

def body (differ : Differ) (policy : MergePolicy) (batch : Int) (base patch : PathName)
    (destination : Option PathName) : Operation Unit := do
  let contents ← Operation.readContainer patch
  Operation.ofExcept (PatchFile.checkPatch patch.text contents)
  let delta ← Operation.ofExcept (PatchFile.load batch patch.text contents)
  Operation.note fun account => { account with metadataChanges := delta.metadataChanges.length }
  match destination with
  | none => inPlace delta differ policy batch base
  | some destination => intoCopy delta differ policy batch base patch destination
  Operation.note fun account => { account with aggHash := delta.after }

end ApplyPatch

def applyPatch (differ : Differ) (policy : MergePolicy) (batch : Int) (base patch : PathName)
    (destination : Option PathName) (files : Workspace) : Outcome :=
  let created := destination.filter fun path => !files.contains path
  runOperation "apply-patch" created
    (ApplyPatch.body differ policy batch base patch destination) files

end TileAtlas
