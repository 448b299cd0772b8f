import TileAtlas.Fault.Basic
import TileAtlas.Metadata.Change

/-!
# Differences of metadata

The changes that turn one tileset's metadata into another's, in ascending order of names and
leaving out the reserved names.
-/

namespace TileAtlas.Metadata

def changeOf? (base target : Metadata) (name : Cell) : Option MetadataChange :=
  match base.get? name, target.get? name with
  | _, none => some (.remove name)
  | none, some value => some (.add name value)
  | some old, some value => if old.same value then none else some (.edit name value)

def jointNames (base target : Metadata) : List Cell :=
  base.names ++ target.names.filter (!base.contains ·)

def diff (base target : Metadata) : Except Failure (List MetadataChange) :=
  match sortNames? (jointNames base.user target.user) with
  | some names => .ok (names.filterMap (changeOf? base.user target.user))
  | none => .error .wrongKind

end TileAtlas.Metadata
