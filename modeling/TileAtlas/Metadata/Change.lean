import TileAtlas.Keyword
import TileAtlas.Metadata.Basic

/-!
# Metadata changes

One change to a tileset's metadata: a value is added under a new name, the value of a name is
edited, or a name is removed.
-/

namespace TileAtlas

inductive MetadataAction
  | add
  | edit
  | remove
  deriving DecidableEq, Repr

instance : Keyword MetadataAction where
  title := "MetadataAction"
  members := [.add, .edit, .remove]
  word
    | .add => "add"
    | .edit => "edit"
    | .remove => "remove"

inductive MetadataChange
  | add (name value : Cell)
  | edit (name value : Cell)
  | remove (name : Cell)
  deriving DecidableEq

namespace MetadataChange

def name : MetadataChange → Cell
  | add name _ | edit name _ | remove name => name

def action : MetadataChange → MetadataAction
  | add .. => .add
  | edit .. => .edit
  | remove _ => .remove

/-- The value that a change sets; null for a removal. -/
def value : MetadataChange → Cell
  | add _ value | edit _ value => value
  | remove _ => .null

/-- The change of the given parts.  A removal carries no value, and any other change does. -/
def build (name : Cell) (action : MetadataAction) (value : Cell) :
    Except Invalid MetadataChange :=
  match action, value with
  | .remove, .null => .ok (remove name)
  | .remove, _ => .error (.valueOnRemoval name)
  | _, .null => .error (.valueMissing (Keyword.word action) name)
  | .add, value => .ok (add name value)
  | .edit, value => .ok (edit name value)

end MetadataChange

end TileAtlas
