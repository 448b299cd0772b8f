import TileAtlas.Bytes.Hex

/-!
# XXH3

The 64-bit XXH3 digest of a byte string, unseeded and with the default secret.  Delta records
carry it as the check of the payload they rebuild.  The digest distinguishes five ranges of
lengths: up to three bytes, up to eight, up to sixteen, up to 240, and long messages that are
read in stripes of 64 bytes.
-/

namespace TileAtlas.Xxh3

open Bytes

def secret : Bytes := ⟨#[
  0xb8, 0xfe, 0x6c, 0x39, 0x23, 0xa4, 0x4b, 0xbe, 0x7c, 0x01, 0x81, 0x2c, 0xf7, 0x21, 0xad, 0x1c,
  0xde, 0xd4, 0x6d, 0xe9, 0x83, 0x90, 0x97, 0xdb, 0x72, 0x40, 0xa4, 0xa4, 0xb7, 0xb3, 0x67, 0x1f,
  0xcb, 0x79, 0xe6, 0x4e, 0xcc, 0xc0, 0xe5, 0x78, 0x82, 0x5a, 0xd0, 0x7d, 0xcc, 0xff, 0x72, 0x21,
  0xb8, 0x08, 0x46, 0x74, 0xf7, 0x43, 0x24, 0x8e, 0xe0, 0x35, 0x90, 0xe6, 0x81, 0x3a, 0x26, 0x4c,
  0x3c, 0x28, 0x52, 0xbb, 0x91, 0xc3, 0x00, 0xcb, 0x88, 0xd0, 0x65, 0x8b, 0x1b, 0x53, 0x2e, 0xa3,
  0x71, 0x64, 0x48, 0x97, 0xa2, 0x0d, 0xf9, 0x4e, 0x38, 0x19, 0xef, 0x46, 0xa9, 0xde, 0xac, 0xd8,
  0xa8, 0xfa, 0x76, 0x3f, 0xe3, 0x9c, 0x34, 0x3f, 0xf9, 0xdc, 0xbb, 0xc7, 0xc7, 0x0b, 0x4f, 0x1d,
  0x8a, 0x51, 0xe0, 0x4b, 0xcd, 0xb4, 0x59, 0x31, 0xc8, 0x9f, 0x7e, 0xc9, 0xd9, 0x78, 0x73, 0x64,
  0xea, 0xc5, 0xac, 0x83, 0x34, 0xd3, 0xeb, 0xc3, 0xc5, 0x81, 0xa0, 0xff, 0xfa, 0x13, 0x63, 0xeb,
  0x17, 0x0d, 0xdd, 0x51, 0xb7, 0xf0, 0xda, 0x49, 0xd3, 0x16, 0x55, 0x26, 0x29, 0xd4, 0x68, 0x9e,
  0x2b, 0x16, 0xbe, 0x58, 0x7d, 0x47, 0xa1, 0xfc, 0x8f, 0xf8, 0xb8, 0xd1, 0x7a, 0xd0, 0x31, 0xce,
  0x45, 0xcb, 0x3a, 0x8f, 0x95, 0x16, 0x04, 0x28, 0xaf, 0xd7, 0xfb, 0xca, 0xbb, 0x4b, 0x40, 0x7e]⟩

def prime32a : UInt64 := 0x9E3779B1

def prime32b : UInt64 := 0x85EBCA77

def prime32c : UInt64 := 0xC2B2AE3D

def prime64a : UInt64 := 0x9E3779B185EBCA87

def prime64b : UInt64 := 0xC2B2AE3D27D4EB4F

def prime64c : UInt64 := 0x165667B19E3779F9

def prime64d : UInt64 := 0x85EBCA77C2B2AE63

def prime64e : UInt64 := 0x27D4EB2F165667C5

def rotateLeft (x n : UInt64) : UInt64 :=
  (x <<< n) ||| (x >>> (64 - n))

def swapBytes (x : UInt64) : UInt64 :=
  le64 (ofList (beBytes 8 x.toNat)) 0

def foldedProduct (x y : UInt64) : UInt64 :=
  let product := x.toNat * y.toNat
  UInt64.ofNat product ^^^ UInt64.ofNat (product / 0x10000000000000000)

def avalanche (h : UInt64) : UInt64 :=
  let h := (h ^^^ (h >>> 37)) * 0x165667919E3779F9
  h ^^^ (h >>> 32)

def shortAvalanche (h : UInt64) : UInt64 :=
  let h := (h ^^^ (h >>> 33)) * prime64b
  let h := (h ^^^ (h >>> 29)) * prime64c
  h ^^^ (h >>> 32)

def middleAvalanche (h : UInt64) (length : Nat) : UInt64 :=
  let h := (h ^^^ rotateLeft h 49 ^^^ rotateLeft h 24) * 0x9FB21C651E98DF25
  let h := (h ^^^ ((h >>> 35) + UInt64.ofNat length)) * 0x9FB21C651E98DF25
  h ^^^ (h >>> 28)

def mix16 (message : Bytes) (i s : Nat) : UInt64 :=
  foldedProduct (le64 message i ^^^ le64 secret s) (le64 message (i + 8) ^^^ le64 secret (s + 8))

def upTo16 (m : Bytes) : UInt64 :=
  let n := m.size
  if n > 8 then
    let low := le64 m 0 ^^^ (le64 secret 24 ^^^ le64 secret 32)
    let high := le64 m (n - 8) ^^^ (le64 secret 40 ^^^ le64 secret 48)
    avalanche (UInt64.ofNat n + swapBytes low + high + foldedProduct low high)
  else if n ≥ 4 then
    let word := (le32 m (n - 4)).toUInt64 + ((le32 m 0).toUInt64 <<< 32)
    middleAvalanche (word ^^^ (le64 secret 8 ^^^ le64 secret 16)) n
  else if n > 0 then
    let word := ((byteAt m 0).toUInt64 <<< 16) ||| ((byteAt m (n / 2)).toUInt64 <<< 24) |||
      (byteAt m (n - 1)).toUInt64 ||| (UInt64.ofNat n <<< 8)
    shortAvalanche (word ^^^ (le32 secret 0 ^^^ le32 secret 4).toUInt64)
  else shortAvalanche (le64 secret 56 ^^^ le64 secret 64)

def upTo128 (m : Bytes) : UInt64 :=
  let n := m.size
  let pairs := (n - 1) / 32 + 1
  avalanche (Nat.fold pairs (fun i _ acc =>
    acc + mix16 m (16 * i) (32 * i) + mix16 m (n - 16 * (i + 1)) (32 * i + 16))
    (UInt64.ofNat n * prime64a))

/-- Messages of 129 to 240 bytes: eight groups, a mix, then the groups that remain. -/
def upTo240 (m : Bytes) : UInt64 :=
  let n := m.size
  let first := Nat.fold 8 (fun i _ acc => acc + mix16 m (16 * i) (16 * i))
    (UInt64.ofNat n * prime64a)
  let rest := Nat.fold (n / 16 - 8) (fun i _ acc => acc + mix16 m (128 + 16 * i) (16 * i + 3))
    (avalanche first)
  avalanche (rest + mix16 m (n - 16) 119)

def accumulators : Array UInt64 :=
  #[prime32c, prime64a, prime64b, prime64c, prime64d, prime32b, prime64e, prime32a]

def accumulate (m : Bytes) (i s : Nat) (acc : Array UInt64) : Array UInt64 :=
  Nat.fold 8 (fun lane _ (acc : Array UInt64) =>
    let value := le64 m (i + 8 * lane)
    let keyed := value ^^^ le64 secret (s + 8 * lane)
    let acc := acc.modify (lane ^^^ 1) (· + value)
    acc.modify lane (· + (keyed &&& (0xFFFFFFFF : UInt64)) * (keyed >>> (32 : UInt64)))) acc

def scramble (acc : Array UInt64) : Array UInt64 :=
  Nat.fold 8 (fun lane _ (acc : Array UInt64) =>
    acc.modify lane fun a => (a ^^^ (a >>> 47) ^^^ le64 secret (128 + 8 * lane)) * prime32a) acc

def long (m : Bytes) : UInt64 :=
  let n := m.size
  let blocks := (n - 1) / 1024
  let acc := Nat.fold blocks (fun b _ acc => scramble
    (Nat.fold 16 (fun k _ acc => accumulate m (1024 * b + 64 * k) (8 * k) acc) acc)) accumulators
  let acc := Nat.fold ((n - 1 - 1024 * blocks) / 64)
    (fun k _ acc => accumulate m (1024 * blocks + 64 * k) (8 * k) acc) acc
  let acc := accumulate m (n - 64) 121 acc
  avalanche (Nat.fold 4 (fun k _ h => h + foldedProduct
    (acc.getD (2 * k) 0 ^^^ le64 secret (11 + 16 * k))
    (acc.getD (2 * k + 1) 0 ^^^ le64 secret (19 + 16 * k))) (UInt64.ofNat n * prime64a))

def digest (m : Bytes) : UInt64 :=
  if m.size ≤ 16 then upTo16 m
  else if m.size ≤ 128 then upTo128 m
  else if m.size ≤ 240 then upTo240 m
  else long m

def hex (m : Bytes) : String :=
  hexLower (beBytes 8 (digest m).toNat)

end TileAtlas.Xxh3
