import TileAtlas.Delta.Differ
import TileAtlas.Patch.Record
import TileAtlas.Tileset.Store

/-!
# Applying a patch

A patch is applied to the open tileset that it was made for, which its first aggregate hash tells;
every record is checked against its hash, and the outcome against the second aggregate hash.  The
first fault ends the work, and the transaction around it undoes what was done.
-/

namespace TileAtlas

def requireHash (computed : Option String) (expected : Cell) (fault : Fault) : Action Unit := do
  if ← Action.ofExcept (sameHash computed expected) then pure ()
  else throw (.fault fault)

namespace PatchRecord

def patched (differ : Differ) (key : TileKey) (old delta : Bytes) : Except Failure Bytes :=
  match differ.apply old delta with
  | .error (.invalid (.delta why)) => .error (.fault (.patchMismatch key (.delta why)))
  | outcome => outcome

def applyTo (record : PatchRecord) (differ : Differ) (t : Tileset) (counters : TileCounters) :
    Action TileCounters :=
  let key := record.key
  match record.encoding with
  | .absent => do
    let _ ← t.delete key
    return { counters with removed := counters.removed + 1 }
  | .full => do
    let computed := tileHash record.tileData
    requireHash computed record.resultHash
      (.patchMismatch key (.payload computed record.resultHash))
    t.put key record.tileData
    return { counters with written := counters.written + 1 }
  | .delta => do
    let entry ← Action.query (t.entry? key)
    match entry.bind (·.data) with
    | none => throw (.fault (.patchMismatch key .noBaseTile))
    | some old =>
      let new ← Action.ofExcept (patched differ key old (record.patchData.getD ByteArray.empty))
      let computed := checkHash new
      requireHash (some computed) record.resultHash
        (.patchMismatch key (.result computed record.resultHash))
      t.put key (some new)
      return { counters with
        written := counters.written + 1
        deltaEncoded := counters.deltaEncoded + 1 }

end PatchRecord

def applyRecords (differ : Differ) (t : Tileset) (counters : TileCounters) :
    Option TileKey → List PatchRecord → Action TileCounters
  | _, [] => return counters
  | previous, record :: rest => do
    match previous with
    | some key =>
      if key < record.key then pure ()
      else throw (.fault (.patchMismatch record.key (.outOfOrder key)))
    | none => pure ()
    let counters ← record.applyTo differ t { counters with read := counters.read + 1 }
    applyRecords differ t counters (some record.key) rest

def DeltaSet.applyTo (delta : DeltaSet) (differ : Differ) (policy : MergePolicy) (t : Tileset) :
    Action TileCounters := do
  let actual ← Action.query t.aggregate
  requireHash (some actual) delta.before (.baseMismatch delta.before (.text actual))
  let counters ← applyRecords differ t .zero none delta.records.items
  let _ ← Action.ofExcept delta.records.all
  let _ ← Tileset.merge policy delta.metadataChanges
  let _ ← t.finalize
  let result ← Action.query t.aggregate
  requireHash (some result) delta.after (.resultMismatch delta.after (.text result))
  Tileset.putMetadata (.text aggHashName) (.text result)
  Tileset.putMetadata (.text hashBeforeName) .null
  Tileset.putMetadata (.text hashAfterName) .null
  return counters

end TileAtlas
