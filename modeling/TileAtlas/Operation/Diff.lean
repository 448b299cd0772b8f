import TileAtlas.Operation.Basic
import TileAtlas.Patch.Diff
import TileAtlas.Patch.File

/-!
# Writing a patch

The patch that turns one tileset into another is written to a new file, record by record.
-/

namespace TileAtlas

namespace Diff

def writePatch (patchType : PatchType) (before after : String) (changes : List MetadataChange)
    (records : Scan PatchRecord) : Action Unit := do
  PatchFile.create
  PatchFile.writeHeader (.text before) (.text after) patchType changes
  Action.note fun account => { account with metadataChanges := changes.length }
  let counters ← PatchFile.writeScan records
  Action.note fun account => { account with tiles := counters }

def body (differ : Differ) (patchType : PatchType) (batch : Int) (base target patch : PathName) :
    Operation Unit := do
  if (← get).files.contains patch then throw (.io (.patchExists patch.text))
  let baseContents ← Operation.readContainer base
  let targetContents ← Operation.readContainer target
  let baseShape ← Operation.ofExcept (detect base.text baseContents)
  let targetShape ← Operation.ofExcept (detect target.text targetContents)
  let baseSet : Tileset := ⟨baseShape, batch⟩
  let targetSet : Tileset := ⟨targetShape, batch⟩
  let before ← Operation.ofExcept (baseSet.aggregate base.text baseContents)
  let after ← Operation.ofExcept (targetSet.aggregate target.text targetContents)
  let baseMetadata ← Operation.ofExcept (Tileset.metadata base.text baseContents)
  let targetMetadata ← Operation.ofExcept (Tileset.metadata target.text targetContents)
  let changes ← Operation.ofExcept (baseMetadata.diff targetMetadata)
  let records := diffRecords differ patchType (baseSet.scan .all base.text baseContents)
    (targetSet.scan .all target.text targetContents)
  Operation.onCreated patch
    (Action.transaction (writePatch patchType before after changes records))
  Operation.note fun account => { account with aggHash := .text after }
  modify fun job => { job with details := .patch before after patchType }

end Diff

def diff (differ : Differ) (patchType : PatchType) (batch : Int) (base target patch : PathName)
    (files : Workspace) : Outcome :=
  let created := if files.contains patch then none else some patch
  runOperation "diff" created (Diff.body differ patchType batch base target patch) files

end TileAtlas
