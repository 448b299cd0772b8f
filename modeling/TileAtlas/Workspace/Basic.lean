import TileAtlas.Container.Session
import TileAtlas.Order.Sort
import TileAtlas.Workspace.PathName

/-!
# Workspaces

A workspace is the files and directories below the working directory.  A file is a container or a
plain file, which cannot be opened as one; an empty file is an empty container.  A place is the
list of names that lead to an entry from the working directory.
-/

namespace TileAtlas

inductive Node
  | directory
  | container (contents : Container)
  | plain (data : Bytes)
  deriving DecidableEq

/-- The file with the given bytes, none of which is a container with anything in it. -/
def Node.ofBytes (data : Bytes) : Node :=
  if data.size = 0 then .container .empty else .plain data

/-- The entries below the working directory. -/
structure Workspace where
  entries : List (List String × Node)
  deriving DecidableEq, Inhabited

namespace Workspace

def empty : Workspace := ⟨[]⟩

/-- What stands at a place; the working directory itself has no names before it. -/
def node? (w : Workspace) (place : List String) : Option Node :=
  if place.isEmpty then some .directory else w.entries.lookup place

def set (w : Workspace) (place : List String) (node : Node) : Workspace :=
  if (w.node? place).isSome then
    ⟨w.entries.map fun entry => if entry.1 = place then (place, node) else entry⟩
  else ⟨w.entries ++ [(place, node)]⟩

def remove (w : Workspace) (place : List String) : Workspace :=
  ⟨w.entries.filter fun entry => entry.1 ≠ place⟩

/-! ### Following path names -/

/-- Where a path name leads. -/
inductive Reached
  | found (place : List String) (node : Node)
  | vacant (place : List String)
  | noDirectory
  | throughFile
  deriving DecidableEq

def followFrom (w : Workspace) (place : List String) (node : Node) : List String → Reached
  | [] => .found place node
  | part :: rest =>
    if node = .directory then
      if part = ".." then
        match w.node? place.dropLast with
        | some parent => w.followFrom place.dropLast parent rest
        | none => .noDirectory
      else
        match w.node? (place ++ [part]) with
        | some next => w.followFrom (place ++ [part]) next rest
        | none => if rest.isEmpty then .vacant (place ++ [part]) else .noDirectory
    else .throughFile

def follow (w : Workspace) (path : PathName) : Reached :=
  w.followFrom [] .directory path.parts

def contains (w : Workspace) (path : PathName) : Bool :=
  match w.follow path with
  | .found .. => true
  | _ => false

def sameEntry (w : Workspace) (a b : PathName) : Bool :=
  match w.follow a, w.follow b with
  | .found place _, .found other _ => place = other
  | _, _ => false

/-! ### Directories -/

/-- Makes the directories along a path name that are not there yet, where some parts have been
followed already. -/
def makeAlong (w : Workspace) (done : List String) : List String → Workspace
  | [] => w
  | part :: rest =>
    let w := match w.follow ⟨done ++ [part]⟩ with
      | .vacant place => w.set place .directory
      | _ => w
    makeAlong w (done ++ [part]) rest

def makeDirectory (w : Workspace) (path : PathName) : Except DirectoryError Workspace :=
  match w.follow path with
  | .found _ .directory => .ok w
  | .found _ _ => .error (.fileExists path.text)
  | .throughFile => .error (.notADirectory path.text)
  | _ => .ok (w.makeAlong [] path.parts)

/-! ### Containers -/

def containerOf (file : String) : Node → Except Failure Container
  | .container contents => .ok contents
  | .plain _ => .error (.io (.notAContainer file))
  | .directory => .error (.io (.cannotOpen file))

def openExisting (w : Workspace) (path : PathName) :
    Except Failure (List String × Container) :=
  match w.follow path with
  | .found place node => (containerOf path.text node).map (place, ·)
  | _ => .error (.io (.notFound path.text))

def openAt (w : Workspace) (path : PathName) :
    Workspace × Except Failure (List String × Container) :=
  match w.follow path with
  | .found place node => (w, (containerOf path.text node).map (place, ·))
  | .vacant place => (w.set place (.container .empty), .ok (place, .empty))
  | _ => (w, .error (.io (.cannotOpen path.text)))

/-- Opens a container, which is made together with its directory if it is not there. -/
def openCreating (w : Workspace) (path : PathName) :
    Workspace × Except Failure (List String × Container) :=
  match w.makeDirectory path.parent with
  | .error why => (w, .error (.directory why))
  | .ok w => w.openAt path

/-- Removes the file that a path name leads to, if there is one; a directory is not removed. -/
def discard (w : Workspace) (path : PathName) : Except Failure Workspace :=
  match w.follow path with
  | .found _ .directory => .error (.notRemovable path.text)
  | .found place _ => .ok (w.remove place)
  | _ => .ok w

/-! ### Listing -/

/-- The names of all files and directories, directories with a slash at the end, in ascending
order. -/
def listing (w : Workspace) : List String :=
  sortBy (fun a b => decide (a ≤ b)) (w.entries.map fun (place, node) =>
    "/".intercalate place ++ (if node = .directory then "/" else ""))

end Workspace

end TileAtlas
