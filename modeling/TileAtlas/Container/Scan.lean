import TileAtlas.Fault.Basic

/-!
# Scans

A scan is what reading a container in sequence gives: the items read so far and, if the reading
ended early, the failure that ended it.
-/

namespace TileAtlas

/-- What reading in sequence gives. -/
structure Scan (α : Type) where
  items : List α
  failure : Option Failure
  deriving DecidableEq

namespace Scan

variable {α β : Type}

def ofList (items : List α) : Scan α := ⟨items, none⟩

def fail (failure : Failure) : Scan α := ⟨[], some failure⟩

def cons (a : α) (s : Scan α) : Scan α := ⟨a :: s.items, s.failure⟩

def all (s : Scan α) : Except Failure (List α) :=
  match s.failure with
  | none => .ok s.items
  | some failure => .error failure

def reading (read : α → Except Failure (Option β)) : List α → Scan β
  | [] => ofList []
  | a :: rest =>
    match read a with
    | .error failure => fail failure
    | .ok none => reading read rest
    | .ok (some b) => cons b (reading read rest)

def ofQuery (rows : Except Failure (List α)) (read : α → Except Failure (Option β)) : Scan β :=
  match rows with
  | .ok rows => reading read rows
  | .error failure => fail failure

def map (f : α → β) (s : Scan α) : Scan β := ⟨s.items.map f, s.failure⟩

@[simp] theorem items_cons (a : α) (s : Scan α) : (cons a s).items = a :: s.items := rfl

@[simp] theorem failure_cons (a : α) (s : Scan α) : (cons a s).failure = s.failure := rfl

end Scan

end TileAtlas
