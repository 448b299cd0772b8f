import TileAtlas.Keyword

/-!
# The status of an operation

Every operation ends with one of five statuses, and each status has an exit code of its own.
-/

namespace TileAtlas

inductive Status
  | success
  | ioFault
  | schemaUnsupported
  | integrityFault
  | conflict
  deriving DecidableEq, Repr

namespace Status

instance : Keyword Status where
  title := "OperationStatus"
  members := [success, ioFault, schemaUnsupported, integrityFault, conflict]
  word
    | success => "success"
    | ioFault => "io_fault"
    | schemaUnsupported => "schema_unsupported"
    | integrityFault => "integrity_fault"
    | conflict => "conflict"

def exitCode : Status → Nat
  | success => 0
  | ioFault => 1
  | schemaUnsupported => 2
  | integrityFault => 3
  | conflict => 4

theorem exitCode_injective {a b : Status} (h : exitCode a = exitCode b) : a = b := by
  cases a <;> cases b <;> first | rfl | cases h

end Status

end TileAtlas
