import TileAtlas.Bytes.Basic
import TileAtlas.Number.Power

/-!
# Bits

Numbers as runs of bits, the most significant bit first, packed into bytes from the top.  The
reader keeps its position in bits and tells a stream that ends too early from one that makes no
sense.
-/

namespace TileAtlas.Compress

def bitsOnto : Nat → Nat → List Bool → List Bool
  | 0, _, rest => rest
  | width + 1, n, rest => bitsOnto width (n / 2) ((n % 2 == 1) :: rest)

def bits (width n : Nat) : List Bool := bitsOnto width n []

/-- The bytes that hold some bits; the last byte is filled up with zeros.  The bits of the byte
under way are given as their number and their value. -/
def packFrom (count value : Nat) : List Bool → Array UInt8 → Array UInt8
  | [], bytes =>
    if count = 0 then bytes else bytes.push (UInt8.ofNat (value * twoTo (8 - count)))
  | b :: rest, bytes =>
    let value := 2 * value + b.toNat
    if count = 7 then packFrom 0 0 rest (bytes.push (UInt8.ofNat value))
    else packFrom (count + 1) value rest bytes

def pack (bits : List Bool) : Bytes := ⟨packFrom 0 0 bits #[]⟩

inductive StreamError
  | cut
  | corrupt
  deriving DecidableEq, Repr

abbrev BitReader := ReaderT Bytes (StateT Nat (Except StreamError))

namespace BitReader

def bit : BitReader Bool := fun data position =>
  if position / 8 < data.size then
    .ok ((Bytes.byteAt data (position / 8)).toNat >>> (7 - position % 8) % 2 == 1, position + 1)
  else .error .cut

def numberFrom (n : Nat) : Nat → BitReader Nat
  | 0 => return n
  | width + 1 => do
    let b ← bit
    numberFrom (2 * n + b.toNat) width

def number (width : Nat) : BitReader Nat := numberFrom 0 width

def require (condition : Bool) : BitReader Unit :=
  if condition then pure () else throw .corrupt

def expect : List Nat → BitReader Unit
  | [] => pure ()
  | byte :: rest => do
    require ((← number 8) == byte)
    expect rest

def times {α : Type} (read : BitReader α) : Nat → BitReader (List α)
  | 0 => return []
  | n + 1 => do
    let a ← read
    return a :: (← times read n)

end BitReader

end TileAtlas.Compress
