import TileAtlas.Account
import TileAtlas.Container.Basic
import TileAtlas.Container.Scan

/-!
# Sessions

A session is an open container: its contents, whether they may be written, whether a transaction
is under way, and what is remembered besides the contents while the container is open.  Work on a
session is an `Action`; when an action fails, the session is left as the failure found it.

A transaction keeps what its body does if the body succeeds, and restores the contents if it
fails.  Only the contents are restored: what is remembered of the images stays.
-/

namespace TileAtlas

/-- The images that an open tileset knows of: for each digest, in capital letters, the identifier
under which the image is stored. -/
abbrev ImageIndex := List (String × Cell)

structure Session where
  file : String
  writable : Bool
  contents : Container
  inTransaction : Bool
  /-- The images that the open tileset knows of, once it has looked. -/
  images : Option ImageIndex
  account : Account
  notices : List Notice
  deriving DecidableEq, Inhabited

namespace Session

def start (file : String) (writable : Bool) (contents : Container) : Session :=
  ⟨file, writable, contents, false, none, .start, []⟩

end Session

abbrev Action := EStateM Failure Session

namespace Action

def ofExcept {α : Type} : Except Failure α → Action α
  | .ok a => pure a
  | .error failure => throw failure

def query {α : Type} (q : String → Container → Except Failure α) : Action α := do
  let session ← get
  ofExcept (q session.file session.contents)

def notify (notices : List Notice) : Action Unit :=
  modify fun session => { session with notices := session.notices ++ notices }

def note (change : Account → Account) : Action Unit :=
  modify fun session => { session with account := change session.account }

def count (change : TileCounters → TileCounters) : Action Unit :=
  note fun account => { account with tiles := change account.tiles }

/-- What a statement comes to on an open container: the number of rows touched and the new
contents, or the failure.  A statement that makes no sense fails first, then one with a number too
large for the container, then one that the container may not be changed by, and last one that
breaks a rule of its table. -/
def outcome (session : Session) (statement : Statement) : Except Failure (Nat × Container) :=
  let failed (why : StatementError) : Failure := .io (.statement session.file why)
  match statement.check session.contents with
  | .error why => .error (failed why)
  | .ok () =>
    if !statement.values.all Cell.fits then .error .outOfRange
    else if !session.writable then .error (failed .readOnly)
    else match statement.run session.contents with
      | .ok result => .ok result
      | .error why => .error (failed why)

def execute (statement : Statement) : Action Nat := fun session =>
  match outcome session statement with
  | .ok (touched, contents) => .ok touched { session with contents }
  | .error failure => .error failure session

def executeAll : List Statement → Action Unit
  | [] => pure ()
  | statement :: rest => do
    let _ ← execute statement
    executeAll rest

/-- Performs a body of work as a whole or not at all. -/
def transaction {α : Type} (body : Action α) : Action α := fun session =>
  if session.inTransaction then .error (.io (.nested session.file)) session
  else match body { session with inTransaction := true } with
    | .ok a after => .ok a { after with inTransaction := false }
    | .error failure after =>
      .error failure { after with inTransaction := false, contents := session.contents }

end Action

end TileAtlas
