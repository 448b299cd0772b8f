import TileAtlas.Bytes.Basic

/-!
# Block checksums

The cyclic redundancy check of a compressed block, taken from the most significant bit on, and
the combined check of a stream of blocks.
-/

namespace TileAtlas.Compress

def checkStep (r : UInt32) : UInt32 :=
  if r >>> 31 = 1 then (r <<< 1) ^^^ 0x04c11db7 else r <<< 1

def checkTable : Array UInt32 :=
  (Array.range 256).map fun i => Nat.repeat checkStep 8 (UInt32.ofNat i <<< 24)

def checksum (block : Bytes) : UInt32 :=
  ~~~(block.data.foldl
    (fun r b => (r <<< 8) ^^^ checkTable.getD (((r >>> 24) ^^^ b.toUInt32).toNat) 0) 0xffffffff)

/-- The check of a stream that goes on with a block. -/
def combine (stream block : UInt32) : UInt32 :=
  ((stream <<< 1) ||| (stream >>> 31)) ^^^ block

end TileAtlas.Compress
