import TileAtlas.Fault.Basic
import TileAtlas.Metadata.Change

/-!
# Merging metadata changes

A change is taken, passed over or refused in view of the current value of its name.  A change to
a reserved name is passed over with a warning; an addition that meets a different value is
refused under the strict policy; an addition of the value that is there already and the removal
of a name that is not there are passed over.
-/

namespace TileAtlas

/-- Whether an addition may replace a different value. -/
inductive MergePolicy
  | strict
  | overwrite
  deriving DecidableEq, Repr

instance : Keyword MergePolicy where
  title := "MergePolicy"
  members := [.strict, .overwrite]
  word
    | .strict => "strict"
    | .overwrite => "overwrite"

namespace MetadataChange

def reservedNotice (change : MetadataChange) : Notice :=
  ⟨.warning, "tilesync.components.mbtiles.metadata",
    "Ignoring change to reserved metadata key '" ++ change.name.display ++ "'"⟩

def notices (change : MetadataChange) : List Notice :=
  if isReserved change.name then [change.reservedNotice] else []

def resolve (policy : MergePolicy) (existing : Option Cell) (change : MetadataChange) :
    Except Fault Bool :=
  if isReserved change.name then .ok false
  else match change, existing with
    | .add name value, some existing =>
      if existing.same value then .ok false
      else if policy = .overwrite then .ok true
      else .error (.metadataConflict name existing value)
    | .remove _, none => .ok false
    | _, _ => .ok true

def applyTo (change : MetadataChange) (m : Metadata) : Metadata :=
  match change with
  | .add name value | .edit name value => m.set name value
  | .remove name => m.erase name

end MetadataChange

namespace Metadata

def merge (policy : MergePolicy) (current : Metadata) :
    List MetadataChange → List Notice × Except Fault Metadata
  | [] => ([], .ok current)
  | change :: rest =>
    match change.resolve policy (current.get? change.name) with
    | .error fault => (change.notices, .error fault)
    | .ok taken =>
      let next := if taken then change.applyTo current else current
      let (notices, merged) := next.merge policy rest
      (change.notices ++ notices, merged)

end Metadata

end TileAtlas
