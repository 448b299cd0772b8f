import TileAtlas.Bytes.Hex
import TileAtlas.Fault.Basic

/-!
# Delta methods

A delta method makes a delta from an old and a new payload and applies a delta to an old payload.
`affix` keeps the longest common beginning and end of the two payloads and stores what lies
between them.
-/

namespace TileAtlas

structure Differ where
  diff : Bytes → Bytes → Except Failure Bytes
  apply : Bytes → Bytes → Except Failure Bytes

namespace Differ

def undecodable (why : DeltaError) : Failure := .invalid (.delta why)

def broken : Differ := ⟨fun _ _ => .error .differBroken, fun _ _ => .error .differBroken⟩

/-- The number of elements that two lists have in common at the beginning, counted on from `n`. -/
def commonLength {α : Type} [DecidableEq α] (n : Nat) : List α → List α → Nat
  | a :: as, b :: bs => if a = b then commonLength (n + 1) as bs else n
  | _, _ => n

/-- The delta of two byte strings: a mark, the lengths of the common beginning and end, and what
the new one has between them. -/
def affixDiff (old new : List UInt8) : List UInt8 :=
  let front := commonLength 0 old new
  let back := commonLength 0 (old.drop front).reverse (new.drop front).reverse
  [0x41, 0x46] ++ Bytes.beBytes 4 front ++ Bytes.beBytes 4 back ++
    (new.drop front).take (new.length - front - back)

def affixApply (old delta : List UInt8) : Except DeltaError (List UInt8) :=
  if delta.take 2 ≠ [0x41, 0x46] ∨ delta.length < 10 then .error .badHeader
  else
    let front := Bytes.be32 (Bytes.ofList delta) 2
    let back := Bytes.be32 (Bytes.ofList delta) 6
    if old.length < front + back then .error .baseTooShort
    else .ok (old.take front ++ delta.drop 10 ++ old.drop (old.length - back))

def affix : Differ where
  diff old new := .ok (Bytes.ofList (affixDiff (Bytes.toList old) (Bytes.toList new)))
  apply old delta :=
    match affixApply (Bytes.toList old) (Bytes.toList delta) with
    | .ok new => .ok (Bytes.ofList new)
    | .error why => .error (undecodable why)

end Differ

end TileAtlas
