import TileAtlas.Container.Cell

/-!
# The account of an operation

While an operation runs it counts what it does to tiles and metadata.  The account stays as it is
when the operation fails, so that a report of the failure shows how far it came.
-/

namespace TileAtlas

structure TileCounters where
  read : Nat
  written : Nat
  skipped : Nat
  removed : Nat
  deltaEncoded : Nat
  deriving DecidableEq, Repr, Inhabited

def TileCounters.zero : TileCounters := ⟨0, 0, 0, 0, 0⟩

structure Account where
  tiles : TileCounters
  metadataChanges : Nat
  /-- The aggregate hash of the written tiles; null as long as it is not known. -/
  aggHash : Cell
  deriving DecidableEq, Inhabited

def Account.start : Account := ⟨.zero, 0, .null⟩

end TileAtlas
