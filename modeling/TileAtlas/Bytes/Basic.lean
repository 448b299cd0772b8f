/-!
# Bytes of a payload

Reading single bytes and fixed-width words out of a byte array.  Every reader is total: a
position past the end holds the byte zero, so that a caller states the length it needs once and
the arithmetic on positions stays free of proofs.
-/

namespace TileAtlas

abbrev Bytes := ByteArray

namespace Bytes

instance instDecidableEq : DecidableEq Bytes := ByteArray.instDecidableEq

def byteAt (b : Bytes) (i : Nat) : UInt8 :=
  if h : i < b.size then b[i] else 0

def le32 (b : Bytes) (i : Nat) : UInt32 :=
  (byteAt b i).toUInt32 ||| ((byteAt b (i + 1)).toUInt32 <<< 8) |||
    ((byteAt b (i + 2)).toUInt32 <<< 16) ||| ((byteAt b (i + 3)).toUInt32 <<< 24)

/-- The 64-bit word whose least significant byte stands at `i`. -/
def le64 (b : Bytes) (i : Nat) : UInt64 :=
  (le32 b i).toUInt64 ||| ((le32 b (i + 4)).toUInt64 <<< 32)

/-- The 32-bit number whose most significant byte stands at `i`. -/
def be32 (b : Bytes) (i : Nat) : Nat :=
  (((byteAt b i).toNat * 256 + (byteAt b (i + 1)).toNat) * 256 +
    (byteAt b (i + 2)).toNat) * 256 + (byteAt b (i + 3)).toNat

def leBytes : Nat → Nat → List UInt8
  | 0, _ => []
  | width + 1, n => UInt8.ofNat (n % 256) :: leBytes width (n / 256)

def beBytes (width n : Nat) : List UInt8 :=
  (leBytes width n).reverse

def ofList (bytes : List UInt8) : Bytes :=
  ⟨bytes.toArray⟩

def toList (b : Bytes) : List UInt8 :=
  b.data.toList

def zeros (n : Nat) : Bytes :=
  ⟨Array.replicate n 0⟩

@[simp] theorem toList_ofList (bytes : List UInt8) : toList (ofList bytes) = bytes := rfl

@[simp] theorem ofList_toList (b : Bytes) : ofList (toList b) = b := rfl

@[simp] theorem length_leBytes (width n : Nat) : (leBytes width n).length = width := by
  induction width generalizing n with
  | zero => rfl
  | succ width ih => simp [leBytes, ih]

@[simp] theorem length_beBytes (width n : Nat) : (beBytes width n).length = width := by
  simp [beBytes]

end Bytes

end TileAtlas
