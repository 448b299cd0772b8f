/-!
# Path names

A path name is the list of its parts, read from a text with slashes.  Empty parts and single dots
say nothing and are dropped when the name is read; double dots are kept, since where they lead
depends on the directories there are.
-/

namespace TileAtlas

/-- A path name relative to the working directory. -/
structure PathName where
  parts : List String
  deriving DecidableEq, Repr, Inhabited

namespace PathName

def ofString (s : String) : PathName :=
  ⟨(s.splitOn "/").filter fun part => part ≠ "" && part ≠ "."⟩

/-- The text of a path name; the working directory itself is a dot. -/
def text (p : PathName) : String :=
  if p.parts.isEmpty then "." else "/".intercalate p.parts

def parent (p : PathName) : PathName := ⟨p.parts.dropLast⟩

end PathName

end TileAtlas
