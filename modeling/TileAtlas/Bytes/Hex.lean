import TileAtlas.Bytes.Basic

/-!
# Hexadecimal digests

Digests are written with two digits a byte.  Tile hashes use capital letters and delta checks
small ones.
-/

namespace TileAtlas.Bytes

def hexDigitUpper (n : Nat) : Char :=
  if n < 10 then Char.ofNat (48 + n) else Char.ofNat (55 + n % 16)

def hexDigitLower (n : Nat) : Char :=
  if n < 10 then Char.ofNat (48 + n) else Char.ofNat (87 + n % 16)

def hexUpper (bytes : List UInt8) : String :=
  String.ofList (bytes.flatMap fun b =>
    [hexDigitUpper (b.toNat / 16), hexDigitUpper (b.toNat % 16)])

def hexLower (bytes : List UInt8) : String :=
  String.ofList (bytes.flatMap fun b =>
    [hexDigitLower (b.toNat / 16), hexDigitLower (b.toNat % 16)])

def hexValue? (c : Char) : Option Nat :=
  if '0' ≤ c ∧ c ≤ '9' then some (c.toNat - 48)
  else if 'a' ≤ c ∧ c ≤ 'f' then some (c.toNat - 87)
  else if 'A' ≤ c ∧ c ≤ 'F' then some (c.toNat - 55)
  else none

end TileAtlas.Bytes
