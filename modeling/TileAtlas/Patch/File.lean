import TileAtlas.Patch.Record
import TileAtlas.Tileset.Rows

/-!
# Patch files

A patch is kept in a container of its own.  The metadata table holds the two aggregate hashes and
the patch type, whose change is null, and every change to the metadata with its action; the table
of patches holds the records.
-/

namespace TileAtlas.PatchFile

def metadataTable : Table :=
  ⟨"metadata", [.word "name" true, .word "value" false, .word "change" false], ["name"], []⟩

def recordColumns : List String :=
  ["action", "encoding", "tile_data", "patch_data", "tile_hash"]

def patchesTable : Table :=
  Layout.keyedTable "patches" [.word "action" true, .word "encoding" true, .payload "tile_data",
    .payload "patch_data", .word "tile_hash" false]

def statements : List Statement :=
  [.createTable metadataTable, .createTable patchesTable,
    .createView (Layout.tilesView "patches")]

def isPatch (c : Container) : Except StatementError Bool := do
  if c.objectKind? "patches" = some .table ∧ c.objectKind? "metadata" = some .table then
    if ← offers c "patches" .table (keyColumns ++ recordColumns) then
      offers c "metadata" .table ["name", "value", "change"]
    else return false
  else return false

def checkPatch (file : String) (c : Container) : Except Failure Unit := do
  if ← onFile file (isPatch c) then return () else throw (.schema (.notAPatch file))

def create : Action Unit := do
  let session ← get
  if session.contents.isEmpty then Action.executeAll statements
  else throw (.io (.occupiedForPatch session.file))

/-! ### Writing -/

def writeEntry (name value change : Cell) : Action Unit := do
  let _ ← Action.execute
    (.replace "metadata" [("name", name), ("value", value), ("change", change)])

def writeChanges : List MetadataChange → Action Unit
  | [] => pure ()
  | change :: rest => do
    writeEntry change.name change.value (.text (Keyword.word change.action))
    writeChanges rest

def writeHeader (before after : Cell) (patchType : PatchType) (changes : List MetadataChange) :
    Action Unit := do
  writeEntry (.text hashBeforeName) before .null
  writeEntry (.text hashAfterName) after .null
  writeEntry (.text patchTypeName) (.text (Keyword.word patchType)) .null
  writeChanges changes

def recordCells (record : PatchRecord) : List (String × Cell) :=
  keyColumns.zip record.key.cells ++
    recordColumns.zip [.text (Keyword.word record.action), .text (Keyword.word record.encoding),
      .ofPayload record.tileData, .ofPayload record.patchData, record.resultHash]

def countWritten (counters : TileCounters) (record : PatchRecord) : TileCounters :=
  let counters := { counters with written := counters.written + 1 }
  match record.encoding with
  | .absent => { counters with removed := counters.removed + 1 }
  | .delta => { counters with deltaEncoded := counters.deltaEncoded + 1 }
  | .full => counters

def writeRecords (counters : TileCounters) : List PatchRecord → Action TileCounters
  | [] => return counters
  | record :: rest => do
    let _ ← Action.execute (.insert "patches" (recordCells record))
    writeRecords (countWritten counters record) rest

def writeScan (records : Scan PatchRecord) : Action TileCounters := do
  let counters ← writeRecords .zero records.items
  let _ ← Action.ofExcept records.all
  return counters

def write (delta : DeltaSet) : Action TileCounters := do
  writeHeader delta.before delta.after delta.patchType delta.metadataChanges
  writeScan delta.records

/-! ### Reading -/

structure HeaderRow where
  name : Cell
  value : Cell
  change : Cell
  deriving DecidableEq

def headerRows (file : String) (c : Container) : Except Failure (List HeaderRow) := do
  let columns := ["name", "value", "change"]
  let rows ← onFile file (c.visit "metadata" columns ⟨[], [], some "name", columns⟩)
  let rows := rows.map fun row =>
    (⟨row.getD 0 .null, row.getD 1 .null, row.getD 2 .null⟩ : HeaderRow)
  return sortBy (fun a b => a.name.le b.name) rows

def controls (rows : List HeaderRow) : Metadata :=
  .ofEntries ((rows.filter (·.change.isNull)).map fun row => (row.name, row.value))

def patchTypeOf (controls : Metadata) : Except Invalid PatchType :=
  Keyword.parse ((controls.get? (.text patchTypeName)).getD (.text (Keyword.word PatchType.whole)))

def changesOf : List HeaderRow → Except Invalid (List MetadataChange)
  | [] => .ok []
  | row :: rest =>
    if row.change.isNull then changesOf rest
    else do
      let action ← Keyword.parse row.change
      let change ← MetadataChange.build row.name action row.value
      let changes ← changesOf rest
      return change :: changes

structure Header where
  before : Cell
  after : Cell
  patchType : PatchType
  metadataChanges : List MetadataChange
  deriving DecidableEq

def typeAndChanges (rows : List HeaderRow) : Except Invalid (PatchType × List MetadataChange) := do
  let patchType ← patchTypeOf (controls rows)
  let changes ← changesOf rows
  return (patchType, changes)

def readHeader (file : String) (c : Container) : Except Failure Header := do
  let rows ← headerRows file c
  let before := ((controls rows).get? (.text hashBeforeName)).getD .null
  let after := ((controls rows).get? (.text hashAfterName)).getD .null
  if before.isNull || after.isNull then throw (.schema (.checkpointsMissing file))
  else match typeAndChanges rows with
    | .ok (patchType, changes) => return ⟨before, after, patchType, changes⟩
    | .error why => throw (.schema (.patchHeader file why))

def recordRows (batch : Int) (file : String) (c : Container) : Except Failure (List Row) := do
  let columns := keyColumns ++ recordColumns
  let rows ← onFile file (c.visit "patches" columns ⟨[], [], some "zoom_level", columns⟩)
  Tileset.checkBatch batch
  return sortBy (fun a b => TileRow.keyLe (.ofCells a) (.ofCells b)) rows

/-- A failure while a record is read, in which a refused value is a fault of the patch. -/
def recordFailure (file : String) (key : TileKey) : Failure → Failure
  | .invalid why => .schema (.patchRecord file key why)
  | failure => failure

def refused {α : Type} : Except Invalid α → Except Failure α
  | .ok a => .ok a
  | .error why => .error (.invalid why)

def recordOf (memory : Nat) (key : TileKey) (action encoding tileData patchData resultHash : Cell) :
    Except Failure PatchRecord := do
  let action ← refused (Keyword.parse action)
  let encoding ← refused (Keyword.parse encoding)
  let tileData ← payload memory tileData
  let patchData ← payload memory patchData
  refused (PatchRecord.build key action encoding tileData patchData resultHash)

def readRecord (memory : Nat) (file : String) (row : Row) : Except Failure (Option PatchRecord) :=
  let cell (i : Nat) : Cell := row.getD i .null
  match TileKey.ofCells? (cell 0) (cell 1) (cell 2) with
  | none => .error (.schema (.patchIndex file (cell 0) (cell 1) (cell 2)))
  | some key =>
    match recordOf memory key (cell 3) (cell 4) (cell 5) (cell 6) (cell 7) with
    | .ok record => .ok (some record)
    | .error failure => .error (recordFailure file key failure)

def scanRecords (batch : Int) (file : String) (c : Container) (memory : Nat := usualMemory) :
    Scan PatchRecord :=
  Scan.ofQuery (recordRows batch file c) (readRecord memory file)

def load (batch : Int) (file : String) (c : Container) : Except Failure DeltaSet := do
  let header ← readHeader file c
  return ⟨header.before, header.after, header.patchType, header.metadataChanges,
    scanRecords batch file c⟩

def count (file : String) (c : Container) : Except Failure Nat := do
  let rows ← onFile file (c.select "patches" [])
  return rows.length

end TileAtlas.PatchFile
