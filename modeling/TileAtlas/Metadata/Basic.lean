import TileAtlas.Container.Cell
import TileAtlas.Order.Sort

/-!
# Metadata

The metadata of a tileset: values under names, in the order in which the names first appeared.
Two names are the same if their cells are.  Three names are reserved for aggregate hashes; they
belong to the hash and patch machinery and are never compared or merged.
-/

namespace TileAtlas

/-- The values of a tileset by name. -/
structure Metadata where
  entries : List (Cell × Cell)
  deriving DecidableEq, Inhabited

def aggHashName : String := "agg_tiles_hash"

def hashBeforeName : String := "agg_tiles_hash_before_apply"

def hashAfterName : String := "agg_tiles_hash_after_apply"

def patchTypeName : String := "patch_type"

def reservedNames : List String := [aggHashName, hashBeforeName, hashAfterName]

def isReserved : Cell → Bool
  | .text s => reservedNames.contains s
  | _ => false

namespace Metadata

def empty : Metadata := ⟨[]⟩

def names (m : Metadata) : List Cell := m.entries.map (·.1)

def get? (m : Metadata) (name : Cell) : Option Cell :=
  (m.entries.find? fun entry => entry.1.same name).map (·.2)

def contains (m : Metadata) (name : Cell) : Bool := (m.get? name).isSome

def setIn (name value : Cell) : List (Cell × Cell) → List (Cell × Cell)
  | [] => [(name, value)]
  | entry :: rest =>
    if entry.1.same name then (entry.1, value) :: rest else entry :: setIn name value rest

def set (m : Metadata) (name value : Cell) : Metadata := ⟨setIn name value m.entries⟩

def erase (m : Metadata) (name : Cell) : Metadata :=
  ⟨m.entries.filter fun entry => !entry.1.same name⟩

def ofEntries (entries : List (Cell × Cell)) : Metadata :=
  entries.foldl (fun m entry => m.set entry.1 entry.2) empty

def user (m : Metadata) : Metadata := ⟨m.entries.filter fun entry => !isReserved entry.1⟩

end Metadata

def Cell.comparable (a b : Cell) : Bool := a.rank != 0 && a.rank == b.rank

/-- Names in ascending order; names of different kinds cannot be put in order. -/
def sortNames? (names : List Cell) : Option (List Cell) :=
  match names with
  | [] => some []
  | [name] => some [name]
  | first :: rest => if rest.all first.comparable then some (sortBy Cell.le names) else none

end TileAtlas
