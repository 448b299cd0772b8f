import TileAtlas.Command.Report
import TileAtlas.Command.Usage
import TileAtlas.Delta.BlockPatch
import TileAtlas.Operation.Apply
import TileAtlas.Operation.Diff
import TileAtlas.Operation.Validate

/-!
# Running a command line

A command line is read, the request is carried out on the files of a workspace, and what there is
to say goes to the standard output or, if it is a message or a fault, to the standard error.
-/

namespace TileAtlas.Command

/-- What a command leaves behind: the files, the lines it has printed, and its exit code or the
failure that passed through. -/
structure CommandOutcome where
  files : Workspace
  output : List String
  errors : List String
  exit : Except Failure Nat

def levels : List (String × Nat) := [
  ("CRITICAL", 50), ("FATAL", 50), ("ERROR", 40), ("WARN", 30), ("WARNING", 30), ("INFO", 20),
  ("DEBUG", 10), ("NOTSET", 0)]

def levelOf : NoticeLevel → Nat × String
  | .warning => (30, "WARNING")
  | .error => (40, "ERROR")

def messageLines (threshold : Nat) (notices : List Notice) : List String :=
  (notices.filter fun notice => threshold ≤ (levelOf notice.level).1).map fun notice =>
    notice.source ++ " - " ++ (levelOf notice.level).2 ++ " - " ++ notice.text

/-- What is printed about the outcome of an operation; a report in JSON stands for the lines of a
success. -/
def ofOutcome (threshold : Nat) (json : Bool) (outcome : Outcome) : CommandOutcome :=
  let messages := messageLines threshold outcome.notices
  match outcome.result with
  | .error failure => ⟨outcome.files, [], messages, .error failure⟩
  | .ok result =>
    match result.fault with
    | some fault =>
      ⟨outcome.files, [], messages ++ [OperationResult.faultLine result.operation fault],
        .ok result.exitCode⟩
    | none =>
      let output := if json then [result.details.json.render 0] else result.lines
      ⟨outcome.files, output, messages, .ok result.exitCode⟩

def speaker : String := "tilesync.components.sync.cli"

def withTileset (threshold : Nat) (file : String) (writable : Bool)
    (work : Tileset → Action (List String)) (files : Workspace) : CommandOutcome :=
  let path := PathName.ofString file
  let body : Operation (List String) := Operation.onExisting path writable do
    let t ← Tileset.openIn 1000
    if writable then Action.transaction (work t) else work t
  match body (.start files) with
  | .ok output job => ⟨job.files, output, messageLines threshold job.notices, .ok 0⟩
  | .error failure job =>
    match failure with
    | .fault fault =>
      let notice : Notice := ⟨.error, speaker, path.text ++ ": " ++ fault.message⟩
      ⟨job.files, [], messageLines threshold (job.notices ++ [notice]), .ok fault.status.exitCode⟩
    | failure => ⟨job.files, [], messageLines threshold job.notices, .error failure⟩

def reservedNotice (name : String) : Notice :=
  ⟨.warning, speaker, "'" ++ name ++ "' is maintained by " ++ program ++
    "; setting it by hand may break verification"⟩

def printSummary (json : Bool) (t : Tileset) : Action (List String) := do
  let summary ← Action.query t.summary
  return if json then [summary.json.render 0] else summary.lines

def printMetadata (name : String) (_ : Tileset) : Action (List String) := do
  let value ← Action.query (Tileset.metadataValue? (.text name))
  return value.toList

def setMetadata (name : String) (value : Option String) (_ : Tileset) : Action (List String) := do
  if isReserved (.text name) then Action.notify [reservedNotice name]
  Tileset.putMetadata (.text name) (.ofText? value)
  return []

def carryOut (settings : Settings) (threshold : Nat) (files : Workspace) :
    Request → CommandOutcome
  | .copy source destination options =>
    ofOutcome threshold false
      (TileAtlas.copy options settings.batch (.ofString source) (.ofString destination) files)
  | .diff base target patch patchType =>
    ofOutcome threshold false (TileAtlas.diff .block patchType settings.batch (.ofString base)
      (.ofString target) (.ofString patch) files)
  | .applyPatch base patch output policy =>
    ofOutcome threshold false (TileAtlas.applyPatch .block policy settings.batch (.ofString base)
      (.ofString patch) (output.map PathName.ofString) files)
  | .validate file integrity mode json =>
    ofOutcome threshold json
      (TileAtlas.validate integrity mode settings.batch (.ofString file) files)
  | .summary file json => withTileset threshold file false (printSummary json) files
  | .metadataGet file name => withTileset threshold file false (printMetadata name) files
  | .metadataSet file name value => withTileset threshold file true (setMetadata name value) files

def run (environment : List (String × String)) (arguments : List String) (files : Workspace) :
    CommandOutcome :=
  match Settings.load [] environment (Settings.fileIn files) with
  | .error failure => ⟨files, [], [], .error failure⟩
  | .ok settings =>
    match parse settings arguments with
    | .error .help => ⟨files, [], [], .ok 0⟩
    | .error (.refused program why) =>
      ⟨files, [], [program ++ ": error: " ++ why.message], .ok 2⟩
    | .ok (request, level) =>
      match levels.lookup (Text.upper level) with
      | none => ⟨files, [], [], .error (.invalid (.logLevel (Text.upper level)))⟩
      | some threshold => carryOut settings threshold files request

end TileAtlas.Command
