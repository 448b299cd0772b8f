import TileAtlas.Container.Table
import TileAtlas.Fault.Status

/-!
# Faults

A `Fault` is what an operation reports to its caller: it has a kind, a status and a message.  A
`Failure` is anything that ends a computation early: a reported fault, a refused value, or one of
the failures that no operation reports and that pass through to the caller.  Both are told apart
by their cause; the wording is in `Fault.message`.
-/

namespace TileAtlas

inductive SchemaCause
  | stated (text : String)
  | metadataMissing (file : String)
  | layoutUnknown (file : String)
  | notAPatch (file : String)
  | checkpointsMissing (file : String)
  | patchHeader (file : String) (why : Invalid)
  | patchIndex (file : String) (z x y : Cell)
  | patchRecord (file : String) (key : TileKey) (why : Invalid)
  deriving DecidableEq

namespace SchemaCause

def message : SchemaCause → String
  | stated text => text
  | metadataMissing file => file ++ ": missing metadata(name, value) table"
  | layoutUnknown file => file ++ ": unrecognized tile layout"
  | notAPatch file => file ++ " is not a tile patch container"
  | checkpointsMissing file => file ++ ": patch is missing its aggregate hash checkpoints"
  | patchHeader file why => file ++ ": invalid patch metadata: " ++ why.message
  | patchIndex file z x y =>
    file ++ ": invalid patch tile index " ++ z.quoted ++ "/" ++ x.quoted ++ "/" ++ y.quoted
  | patchRecord file key why =>
    file ++ ": invalid patch record at " ++ key.text ++ ": " ++ why.message

end SchemaCause

inductive DirectoryError
  | fileExists (path : String)
  | notADirectory (path : String)
  deriving DecidableEq, Repr

namespace DirectoryError

def message : DirectoryError → String
  | fileExists path => "[Errno 17] File exists: " ++ Text.quoted path
  | notADirectory path => "[Errno 20] Not a directory: " ++ Text.quoted path

end DirectoryError

inductive IoCause
  | stated (text : String)
  | notFound (file : String)
  | notAContainer (file : String)
  | cannotOpen (file : String)
  | occupiedForLayout (file layout : String)
  | occupiedForPatch (file : String)
  | tileIndex (file : String) (z x y : Cell)
  | statement (file : String) (why : StatementError)
  | nested (file : String)
  | order (label : String) (key after : TileKey)
  | sourceIsDestination (file : String)
  | baseIsPatch (file : String)
  | patchExists (file : String)
  | destinationExists (file : String)
  | directory (why : DirectoryError)
  deriving DecidableEq

namespace IoCause

def message : IoCause → String
  | stated text => text
  | notFound file => "Tile container not found: " ++ file
  | notAContainer file => "Cannot open tile container " ++ file ++ ": file is not a database"
  | cannotOpen file => "Cannot open tile container " ++ file ++ ": unable to open database file"
  | occupiedForLayout file layout =>
    file ++ " is not empty, refusing to create a " ++ layout ++ " layout"
  | occupiedForPatch file => file ++ " is not empty, refusing to write a patch into it"
  | tileIndex file z x y =>
    file ++ ": invalid tile index z=" ++ z.quoted ++ " x=" ++ x.quoted ++ " y=" ++ y.quoted
  | statement file why => file ++ ": " ++ why.message
  | nested file => file ++ ": nested transactions are not supported"
  | order label key after =>
    label ++ " tiles are not in ascending key order at " ++ key.text ++ " (after " ++ after.text ++
      ")"
  | sourceIsDestination file => "source and destination are the same file: " ++ file
  | baseIsPatch file => "base and patch are the same file: " ++ file
  | patchExists file => "patch file already exists: " ++ file
  | destinationExists file => "destination already exists: " ++ file
  | directory why => why.message

end IoCause

inductive RecordCause
  | stated (text : String)
  | outOfOrder (after : TileKey)
  | payload (computed : Option String) (expected : Cell)
  | noBaseTile
  | delta (why : DeltaError)
  | result (computed : String) (expected : Cell)
  deriving DecidableEq

namespace RecordCause

def message : RecordCause → String
  | stated text => text
  | outOfOrder after => "records out of order (after " ++ after.text ++ ")"
  | payload computed expected =>
    "payload hashes to " ++ (Cell.ofText? computed).display ++ ", expected " ++ expected.display
  | noBaseTile => "delta has no base tile to apply to"
  | delta why => why.message
  | result computed expected =>
    "patched tile hashes to " ++ computed ++ ", expected " ++ expected.display

end RecordCause

/-- What an operation reports when it does not succeed. -/
inductive Fault
  | general (text : String)
  | schema (cause : SchemaCause)
  | io (cause : IoCause)
  | metadataConflict (name existing incoming : Cell)
  | tileConflict (key : TileKey)
  | integrity (text : String)
  | baseMismatch (expected actual : Cell)
  | patchMismatch (key : TileKey) (cause : RecordCause)
  | resultMismatch (expected actual : Cell)
  | aggHashMismatch (stored computed : Cell)
  | corruptTile (key : TileKey) (stored computed : Cell)
  deriving DecidableEq

namespace Fault

def kind : Fault → String
  | general _ => "TileSyncError"
  | schema _ => "SchemaError"
  | io _ => "IOFault"
  | metadataConflict .. => "MetadataConflict"
  | tileConflict _ => "TileConflict"
  | integrity _ => "IntegrityFault"
  | baseMismatch .. => "BaseMismatch"
  | patchMismatch .. => "PatchMismatch"
  | resultMismatch .. => "ResultMismatch"
  | aggHashMismatch .. => "AggHashMismatch"
  | corruptTile .. => "CorruptTile"

def isIntegrity : Fault → Bool
  | integrity _ | baseMismatch .. | patchMismatch .. | resultMismatch .. | aggHashMismatch ..
  | corruptTile .. => true
  | _ => false

def status : Fault → Status
  | general _ | io _ => .ioFault
  | schema _ => .schemaUnsupported
  | metadataConflict .. | tileConflict _ => .conflict
  | integrity _ | baseMismatch .. | patchMismatch .. | resultMismatch .. | aggHashMismatch ..
  | corruptTile .. => .integrityFault

def message : Fault → String
  | general text => text
  | schema cause => cause.message
  | io cause => cause.message
  | metadataConflict name existing incoming =>
    "metadata key '" ++ name.display ++ "' already holds '" ++ existing.display ++
      "', refusing to add '" ++ incoming.display ++ "'"
  | tileConflict key => "destination already holds a different tile at " ++ key.text
  | integrity text => text
  | baseMismatch expected actual =>
    "base store aggregate hash " ++ actual.display ++ " does not match the patch base " ++
      expected.display
  | patchMismatch key cause =>
    "patch for tile " ++ key.text ++ " failed verification: " ++ cause.message
  | resultMismatch expected actual =>
    "patched store aggregate hash " ++ actual.display ++ " does not match the expected " ++
      expected.display
  | aggHashMismatch stored computed =>
    "stored agg_tiles_hash " ++ stored.display ++ " does not match computed " ++ computed.display
  | corruptTile key stored computed =>
    "tile " ++ key.text ++ " has stored hash " ++ stored.display ++ " but its data hashes to " ++
      computed.display

theorem status_ne_success (f : Fault) : f.status ≠ .success := by
  cases f <;> simp [status]

end Fault

/-- What is wrong with the value of one field of a record that is read from outside. -/
inductive FieldProblem
  | choice
  | notPositive
  | intText
  | intKind
  | intFraction
  | intSize
  | finite
  | boolText
  | boolKind
  | textKind
  deriving DecidableEq, Repr

namespace FieldProblem

def word : FieldProblem → String
  | choice => "enum"
  | notPositive => "greater_than"
  | intText => "int_parsing"
  | intKind => "int_type"
  | intFraction => "int_from_float"
  | intSize => "int_parsing_size"
  | finite => "finite_number"
  | boolText => "bool_parsing"
  | boolKind => "bool_type"
  | textKind => "string_type"

end FieldProblem

/-- Why a computation ends early. -/
inductive Failure
  | fault (f : Fault)
  | invalid (why : Invalid)
  | wrongKind
  /-- A number where a text is needed for its capital form. -/
  | noCapitals
  /-- A number that does not fit its machine representation. -/
  | outOfRange
  | noMemory
  | fields (problems : List (String × FieldProblem))
  | directory (why : DirectoryError)
  | notRemovable (path : String)
  | differBroken
  deriving DecidableEq

namespace Failure

/-- A failure as the fault that an operation reports for it, if it reports one. -/
def reported? : Failure → Option Fault
  | fault f => some f
  | directory why => some (.io (.directory why))
  | _ => none

def schema (cause : SchemaCause) : Failure := fault (.schema cause)

def io (cause : IoCause) : Failure := fault (.io cause)

end Failure

inductive NoticeLevel
  | warning
  | error
  deriving DecidableEq, Repr

/-- A message that accompanies an operation without ending it. -/
structure Notice where
  level : NoticeLevel
  source : String
  text : String
  deriving DecidableEq, Repr

end TileAtlas
