import TileAtlas.Number.Lenient
import TileAtlas.Operation.Copy
import TileAtlas.Settings.Assignments

/-!
# Settings

The settings of operations, each of which has a default.  A value may be given directly, in the
environment, or in a file of assignments, in this order of precedence; the names in the
environment and in the file have a prefix of their own and may be spelled in any case.
-/

namespace TileAtlas

inductive SettingValue
  | flag (b : Bool)
  | cell (c : Cell)
  | other
  deriving DecidableEq

structure Settings where
  patchType : PatchType
  metadataPolicy : MergePolicy
  onDuplicate : OnDuplicate
  /-- The layout of new destinations; that of the source if none is given. -/
  layout : Option Layout
  integrity : IntegrityCheck
  batch : Int
  progress : Bool
  logLevel : String
  deriving DecidableEq

namespace Settings

def default : Settings := ⟨.delta, .strict, .override, none, .quick, 1000, true, "INFO"⟩

def namePrefix : String := "tilesync_"

def fileName : String := ".env.tilesync"

def names : List String :=
  ["dst_type", "fetch_batch_size", "integrity_check", "log_level", "metadata_policy",
    "on_duplicate", "patch_type", "progress"]

def find? (name : String) (entries : List (String × Option String)) : Option String :=
  (entries.reverse.find? fun entry => Text.lowerAscii entry.1 = namePrefix ++ name).bind (·.2)

structure Sources where
  given : List (String × SettingValue)
  environment : List (String × Option String)
  /-- The values of the file, in the order in which they stand there; a name may stand alone. -/
  file : List (String × Option String)

def Sources.value? (s : Sources) (name : String) : Option SettingValue :=
  s.given.lookup name
    <|> (find? name s.environment).map (fun text => .cell (.text text))
    <|> (find? name s.file).map (fun text => .cell (.text text))

/-! ### Reading one setting -/

def keyword (α : Type) [Keyword α] : SettingValue → Except FieldProblem α
  | .cell (.text s) =>
    match Keyword.ofWord? s with
    | some a => .ok a
    | none => .error .choice
  | _ => .error .choice

def keyword? (α : Type) [Keyword α] : SettingValue → Except FieldProblem (Option α)
  | .cell .null => .ok none
  | value => (keyword α value).map some

def positive (value : SettingValue) : Except FieldProblem Int := do
  let n ← match value with
    | .flag b => .ok (if b then 1 else 0)
    | .cell c => Number.fieldInt c
    | .other => .error .intKind
  if 0 < n then return n else throw .notPositive

def truthOfText (s : String) : Except FieldProblem Bool :=
  let word := Text.lowerAscii s
  if ["1", "true", "t", "yes", "y", "on"].contains word then .ok true
  else if ["0", "false", "f", "no", "n", "off"].contains word then .ok false
  else .error .boolText

def truthOfInt (n : Int) : Except FieldProblem Bool :=
  if n = 1 then .ok true else if n = 0 then .ok false else .error .boolText

def truth : SettingValue → Except FieldProblem Bool
  | .flag b => .ok b
  | .cell (.text s) => truthOfText s
  | .cell (.int n) => if (Cell.int n).fits then truthOfInt n else .error .boolKind
  | .cell (.real x) =>
    match Number.fieldIntOfDouble x with
    | .ok n => truthOfInt n
    | .error _ => .error .boolKind
  | .cell (.blob b) =>
    match String.fromUTF8? b with
    | some s => truthOfText s
    | none => .error .boolText
  | _ => .error .boolKind

def text : SettingValue → Except FieldProblem String
  | .cell (.text s) => .ok s
  | _ => .error .textKind

/-! ### Reading all settings -/

def setting {α : Type} (sources : Sources) (name : String) (otherwise : α)
    (read : SettingValue → Except FieldProblem α) : Except FieldProblem α :=
  match sources.value? name with
  | some value => read value
  | none => .ok otherwise

def problem? {α : Type} (name : String) : Except FieldProblem α → Option (String × FieldProblem)
  | .ok _ => none
  | .error problem => some (name, problem)

/-- The settings that the sources give, or the problems of all fields in ascending order of
names. -/
def ofSources (sources : Sources) : Except Failure Settings :=
  let patchType := setting sources "patch_type" default.patchType (keyword PatchType)
  let metadataPolicy := setting sources "metadata_policy" default.metadataPolicy
    (keyword MergePolicy)
  let onDuplicate := setting sources "on_duplicate" default.onDuplicate (keyword OnDuplicate)
  let layout := setting sources "dst_type" default.layout (keyword? Layout)
  let integrity := setting sources "integrity_check" default.integrity (keyword IntegrityCheck)
  let batch := setting sources "fetch_batch_size" default.batch positive
  let progress := setting sources "progress" default.progress truth
  let logLevel := setting sources "log_level" default.logLevel text
  match patchType, metadataPolicy, onDuplicate, layout, integrity, batch, progress, logLevel with
  | .ok patchType, .ok metadataPolicy, .ok onDuplicate, .ok layout, .ok integrity, .ok batch,
      .ok progress, .ok logLevel =>
    .ok ⟨patchType, metadataPolicy, onDuplicate, layout, integrity, batch, progress, logLevel⟩
  | _, _, _, _, _, _, _, _ => .error (.fields ([
      problem? "dst_type" layout, problem? "fetch_batch_size" batch,
      problem? "integrity_check" integrity, problem? "log_level" logLevel,
      problem? "metadata_policy" metadataPolicy, problem? "on_duplicate" onDuplicate,
      problem? "patch_type" patchType, problem? "progress" progress].filterMap id))

/-- The values of a file of assignments, in the order in which they stand there. -/
def fileEntries (environment : List (String × String)) (text : String) :
    List (String × Option String) :=
  (Assignments.read environment text).reverse

/-- The settings from values given directly, the environment and the text of the file of
assignments, if there is one. -/
def load (given : List (String × SettingValue)) (environment : List (String × String))
    (file : Option String) : Except Failure Settings :=
  ofSources ⟨given, environment.map fun (name, value) => (name, some value),
    (file.map (fileEntries environment)).getD []⟩

/-- The file of assignments of a workspace.  A container is no text, but an empty one is an empty
file. -/
def fileIn (files : Workspace) : Option String :=
  match files.follow (.ofString fileName) with
  | .found _ (.plain data) => String.fromUTF8? data
  | _ => none

end Settings

end TileAtlas
