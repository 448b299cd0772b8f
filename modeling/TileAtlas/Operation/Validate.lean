import TileAtlas.Operation.Basic

/-!
# Validating a file

A file is validated for reading only, unless its aggregate hash is to be brought up to date.
-/

namespace TileAtlas

namespace Validate

def body (integrity : IntegrityCheck) (mode : AggHashMode) (batch : Int) (path : PathName) :
    Operation Unit := do
  let report ← Operation.onExisting path (mode = .update) do
    let t ← Tileset.openIn batch
    let validate := t.validate integrity mode
    if mode = .update then Action.transaction validate else validate
  Operation.note fun account => { account with
    tiles := { account.tiles with read := report.tilesChecked }
    aggHash := .text report.computed }
  modify fun job => { job with details := .validation report }

end Validate

def validate (integrity : IntegrityCheck) (mode : AggHashMode) (batch : Int) (path : PathName)
    (files : Workspace) : Outcome :=
  runOperation "validate" none (Validate.body integrity mode batch path) files

end TileAtlas
