import TileAtlas.Command.Run
import TileAtlas.Container.Written

/-!
# The program

The command line at work on the files below the working directory.  The files that the arguments
name are read into a workspace, the command is carried out on it, and what has changed is written
back.
-/

namespace TileAtlas.Command

def nodeOfFile (data : Bytes) : Node :=
  match Container.ofBytes? (Bytes.toList data) with
  | some contents => .container contents
  | none => .ofBytes data

/-- The bytes of a file; none if it cannot be read. -/
def readNode? (name : String) : IO (Option Node) := do
  try
    return some (nodeOfFile (← IO.FS.readBinFile name))
  catch _ =>
    return none

def fileNames (arguments : List String) : List String :=
  arguments ++ arguments.map fun a => "=".intercalate ((a.splitOn "=").drop 1)

/-- The workspace with a file at a path, together with the directories that lead there. -/
def placeFile (files : Workspace) (path : PathName) (node : Node) : Workspace :=
  match files.makeDirectory path.parent with
  | .error _ => files
  | .ok files =>
    match files.follow path with
    | .vacant place => files.set place node
    | _ => files

def readFiles (names : List String) : IO Workspace :=
  names.foldlM (fun files name => do
    let path := PathName.ofString name
    match ← readNode? path.text with
    | some node => return placeFile files path node
    | none => return files) .empty

def writeNode (name : String) : Node → IO Unit
  | .directory => IO.FS.createDirAll name
  | .container contents => IO.FS.writeBinFile name (Bytes.ofList contents.toBytes)
  | .plain data => IO.FS.writeBinFile name data

def saveChanges (before after : Workspace) : IO Unit := do
  for (place, _) in before.entries do
    if (after.node? place).isNone then IO.FS.removeFile ("/".intercalate place)
  for (place, node) in after.entries do
    if before.node? place ≠ some node then writeNode ("/".intercalate place) node

def readEnvironment : IO (List (String × String)) := do
  let found ← Settings.names.mapM fun name => do
    let full := Text.upper (Settings.namePrefix ++ name)
    return (← IO.getEnv full).map fun value => (full, value)
  return found.filterMap id

end TileAtlas.Command

open TileAtlas TileAtlas.Command in
def main (arguments : List String) : IO UInt32 := do
  let files ← readFiles (Settings.fileName :: fileNames arguments)
  let outcome := Command.run (← readEnvironment) arguments files
  saveChanges files outcome.files
  outcome.output.forM IO.println
  outcome.errors.forM IO.eprintln
  match outcome.exit with
  | .ok code => return UInt32.ofNat code
  | .error failure =>
    IO.eprintln failure.line
    return 1
