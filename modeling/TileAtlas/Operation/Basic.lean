import TileAtlas.Patch.Record
import TileAtlas.Tileset.Validation
import TileAtlas.Workspace.Basic

/-!
# Operations on files

An operation works on the files of a workspace and ends with a result.  A reported fault becomes
part of the result; any other failure passes through.  In both cases a file that the operation
has created is removed again, and its transaction has restored what was there before.
-/

namespace TileAtlas

/-- What the result of a successful operation tells besides its account. -/
inductive Details
  | none
  | patch (before after : String) (patchType : PatchType)
  | validation (report : ValidationReport)
  deriving DecidableEq

/-- The state of a running operation. -/
structure Job where
  files : Workspace
  account : Account
  details : Details
  notices : List Notice
  deriving DecidableEq

def Job.start (files : Workspace) : Job := ⟨files, .start, .none, []⟩

abbrev Operation := EStateM Failure Job

namespace Operation

def ofExcept {α : Type} : Except Failure α → Operation α
  | .ok a => pure a
  | .error failure => throw failure

def note (change : Account → Account) : Operation Unit :=
  modify fun job => { job with account := change job.account }

def readContainer (path : PathName) : Operation Container := do
  let (_, contents) ← ofExcept ((← get).files.openExisting path)
  return contents

def work {α : Type} (place : List String) (session : Session) (body : Action α) : Operation α :=
  fun job =>
    let close (after : Session) : Job := { job with
      files := job.files.set place (.container after.contents)
      account := after.account
      notices := job.notices ++ after.notices }
    match body { session with account := job.account } with
    | .ok a after => .ok a (close after)
    | .error failure after => .error failure (close after)

def onExisting {α : Type} (path : PathName) (writable : Bool) (body : Action α) : Operation α := do
  let (place, contents) ← ofExcept ((← get).files.openExisting path)
  work place (.start path.text writable contents) body

def onCreated {α : Type} (path : PathName) (body : Action α) : Operation α := do
  let (files, opened) := (← get).files.openCreating path
  modify fun job => { job with files }
  let (place, contents) ← ofExcept opened
  work place (.start path.text true contents) body

end Operation

structure OperationResult where
  operation : String
  fault : Option Fault
  account : Account
  details : Details
  deriving DecidableEq

namespace OperationResult

def status (r : OperationResult) : Status :=
  match r.fault with
  | none => .success
  | some fault => fault.status

def ok (r : OperationResult) : Bool := r.fault.isNone

def exitCode (r : OperationResult) : Nat := r.status.exitCode

end OperationResult

/-- What an operation leaves behind: the files, the messages, and its result or the failure that
passed through. -/
structure Outcome where
  files : Workspace
  notices : List Notice
  result : Except Failure OperationResult

def operationSpeaker : String := "tilesync.components.sync.engine"

def failureNotice (operation : String) (fault : Fault) : Notice :=
  ⟨.error, operationSpeaker, operation ++ " failed (" ++ fault.kind ++ "): " ++ fault.message⟩

def failureNotices (operation : String) (failure : Failure) (notices : List Notice) :
    List Notice :=
  match failure.reported? with
  | some fault => notices ++ [failureNotice operation fault]
  | none => notices

def failureResult (operation : String) (failure : Failure) (account : Account) :
    Except Failure OperationResult :=
  match failure.reported? with
  | some fault => .ok ⟨operation, some fault, account, .none⟩
  | none => .error failure

/-- The files after a failure: the file that the operation has created is removed. -/
def removeCreated (created : Option PathName) (files : Workspace) : Except Failure Workspace :=
  match created with
  | some path => files.discard path
  | none => .ok files

/-- Runs an operation that may create a file.  A file that cannot be removed again after a failure
is a failure that passes through. -/
def runOperation (operation : String) (created : Option PathName) (body : Operation Unit)
    (files : Workspace) : Outcome :=
  match body (.start files) with
  | .ok _ job => ⟨job.files, job.notices, .ok ⟨operation, none, job.account, job.details⟩⟩
  | .error failure job =>
    let notices := failureNotices operation failure job.notices
    match removeCreated created job.files with
    | .ok files => ⟨files, notices, failureResult operation failure job.account⟩
    | .error why => ⟨job.files, notices, .error why⟩

end TileAtlas
