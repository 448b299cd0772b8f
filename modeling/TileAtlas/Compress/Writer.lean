import TileAtlas.Compress.Checksum
import TileAtlas.Compress.PrefixCode
import TileAtlas.Compress.Transform

/-!
# Writing compressed streams

The text is cut into blocks.  Each block is written with one prefix code made for it; the format
asks for a second code, which is a flat one and never takes a turn.
-/

namespace TileAtlas.Compress

def usedBytes (block : Array UInt8) : List UInt8 :=
  let seen := block.foldl (fun seen b => seen.setIfInBounds b.toNat true)
    (Array.replicate 256 false)
  ((List.range 256).filter fun i => seen.getD i false).map UInt8.ofNat

/-- The used bytes as bits: groups of sixteen, then the members of each group that occurs. -/
def usedBits (used : List UInt8) : List Bool :=
  let members (group : Nat) : List Bool :=
    (List.range 16).map fun i => used.contains (UInt8.ofNat (16 * group + i))
  let groups := (List.range 16).map members
  groups.map (·.any id) ++ (groups.filter (·.any id)).flatten

def lengthSteps (length target : Nat) : List Bool :=
  if length ≤ target then (List.replicate (target - length) [true, false]).flatten ++ [false]
  else (List.replicate (length - target) [true, true]).flatten ++ [false]

def lengthBits (length : Nat) : List Nat → List Bool
  | [] => []
  | target :: rest => lengthSteps length target ++ lengthBits target rest

def codeBits (lengths : List Nat) : List Bool :=
  bits 5 (lengths.headD 1) ++ lengthBits (lengths.headD 1) lengths

def symbolCounts (size : Nat) (symbols : List Nat) : List Nat :=
  (symbols.foldl (fun counts symbol => counts.modify symbol (· + 1))
    (Array.replicate size 0)).toList

def blockBits (block : List UInt8) : List Bool :=
  let (last, place) := lastColumn (shortenRuns block)
  let used := usedBytes last
  let places := placesFrom used #[] last.toList
  let symbols := ((symbolsFrom 0 #[] places.toList).push (used.length + 1)).toList
  let lengths := codeLengths 20 ((symbolCounts (used.length + 2) symbols).map (max 1))
  let words := codeWords lengths
  let turnCount := (symbols.length + 49) / 50
  bits 24 0x314159 ++ bits 24 0x265359 ++ bits 32 (checksum (Bytes.ofList block)).toNat ++
    [false] ++ bits 24 place ++ usedBits used ++ bits 3 2 ++ bits 15 turnCount ++
    List.replicate turnCount false ++ codeBits lengths ++
    codeBits (List.replicate (used.length + 2) 9) ++
    symbols.flatMap fun symbol => words.getD symbol []

/-- The greatest number of bytes in a block.  A block grows by a quarter at most when its runs
are shortened. -/
def blockSize : Nat := 700000

def cutBlocks : Nat → List UInt8 → List (List UInt8)
  | 0, _ => []
  | _, [] => []
  | fuel + 1, text => text.take blockSize :: cutBlocks fuel (text.drop blockSize)

def compress (text : Bytes) : Bytes :=
  let blocks := cutBlocks (text.size / blockSize + 1) (Bytes.toList text)
  let check := blocks.foldl (fun check block => combine check (checksum (Bytes.ofList block))) 0
  pack (bits 32 0x425a6839 ++ blocks.flatMap blockBits ++
    bits 24 0x177245 ++ bits 24 0x385090 ++ bits 32 check.toNat)

end TileAtlas.Compress
