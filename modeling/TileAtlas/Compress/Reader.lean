import TileAtlas.Compress.Checksum
import TileAtlas.Compress.PrefixCode
import TileAtlas.Compress.Transform

/-!
# Reading compressed streams

A stream is a header, a number of blocks and an end mark.  A block gives the used bytes, the
prefix codes with the order in which they take turns, and the symbols of the block, and carries
the checksum of its contents.
-/

namespace TileAtlas.Compress

open BitReader

/-- The bytes that occur in a block: sixteen bits tell which groups of sixteen occur at all. -/
def readUsed : BitReader (List UInt8) := do
  let groups ← times bit 16
  let used ← groups.zipIdx.mapM fun (occurs, group) => do
    if occurs then
      let members ← times bit 16
      return (members.zipIdx.filter (·.1)).map fun (_, i) => UInt8.ofNat (16 * group + i)
    else return []
  return used.flatten

/-- Counts ones up to a zero; there may be fewer than `limit` ones. -/
def readCount (limit : Nat) : Nat → BitReader Nat
  | 0 => throw .corrupt
  | fuel + 1 => do
    if ← bit then
      let more ← readCount limit fuel
      require (more + 1 < limit)
      return more + 1
    else return 0

/-- The codes that take turns, from their places in a list that moves what was used to the
front. -/
def turns (front : List Nat) : List Nat → List Nat
  | [] => []
  | place :: rest =>
    match takeOut place front with
    | some (code, others) => code :: turns (code :: others) rest
    | none => turns front rest

def readLength (length : Nat) : Nat → BitReader Nat
  | 0 => throw .corrupt
  | fuel + 1 => do
    require (1 ≤ length ∧ length ≤ 20)
    if ← bit then
      if ← bit then readLength (length - 1) fuel else readLength (length + 1) fuel
    else return length

def readLengths (length : Nat) : Nat → BitReader (List Nat)
  | 0 => return []
  | count + 1 => do
    let position ← get
    let length ← readLength length (8 * (← read).size - position + 1)
    return length :: (← readLengths length count)

/-- The symbols of a block up to its end symbol; a code serves for `left` symbols more. -/
def readSymbols (codes : Array CodeReader) (last left : Nat) (order : List Nat)
    (done : Array Nat) : Nat → BitReader (List Nat)
  | 0 => throw .corrupt
  | fuel + 1 =>
    match order with
    | [] => throw .corrupt
    | turn :: rest =>
      match codes[turn]? with
      | none => throw .corrupt
      | some code => do
        let symbol ← code.read
        if symbol = last then return done.toList
        else
          let done := done.push symbol
          if left = 1 then readSymbols codes last 50 rest done fuel
          else readSymbols codes last (left - 1) order done fuel

def readBlock (limit : Nat) : BitReader (Bytes × UInt32) := do
  let check ← number 32
  let shuffled ← bit
  require (!shuffled)
  let place ← number 24
  let used ← readUsed
  require (!used.isEmpty)
  let codeCount ← number 3
  require (2 ≤ codeCount ∧ codeCount ≤ 6)
  let turnCount ← number 15
  require (1 ≤ turnCount)
  let places ← times (readCount codeCount 7) turnCount
  let codes ← times (do readLengths (← number 5) (used.length + 2)) codeCount
  let position ← get
  let symbols ← readSymbols (codes.map CodeReader.ofLengths).toArray (used.length + 1) 50
    (turns (List.range codeCount) places) #[] (8 * (← read).size - position + 1)
  let last ← monadLift (bytesOfSymbols limit used 0 1 #[] symbols)
  require (place < last.size)
  let block ← monadLift (restoreRuns (ofLastColumn last place).toList)
  require ((checksum ⟨block⟩).toNat = check)
  return (⟨block⟩, checksum ⟨block⟩)

def readBlocks (limit : Nat) (check : UInt32) (done : Array UInt8) : Nat → BitReader Bytes
  | 0 => throw .cut
  | fuel + 1 => do
    let mark ← number 8
    if mark = 0x17 then
      expect [0x72, 0x45, 0x38, 0x50, 0x90]
      require ((← number 32) = check.toNat)
      return ⟨done⟩
    else
      require (mark = 0x31)
      expect [0x41, 0x59, 0x26, 0x53, 0x59]
      let (block, blockCheck) ← readBlock limit
      readBlocks limit (combine check blockCheck) (done ++ block.data) fuel

def readStream : BitReader Bytes := do
  expect [0x42, 0x5a, 0x68]
  let level ← number 8
  require (0x31 ≤ level ∧ level ≤ 0x39)
  readBlocks ((level - 0x30) * 100000) 0 #[] (← read).size

/-- The contents of the streams that follow one another.  What follows them and is no stream is
passed over. -/
def decompressFrom (data : Bytes) (done : Array UInt8) (start : Nat) :
    Nat → Except StreamError Bytes
  | 0 => .ok ⟨done⟩
  | fuel + 1 =>
    if data.size ≤ start then .ok ⟨done⟩
    else match readStream data (8 * start) with
      | .ok (block, position) =>
        decompressFrom data (done ++ block.data) ((position + 7) / 8) fuel
      | .error why =>
        if start = 0 ∨ why = .cut then .error why else .ok ⟨done⟩

/-- The contents of a compressed text; nothing at all is the empty text. -/
def decompress (data : Bytes) : Except StreamError Bytes :=
  decompressFrom data #[] 0 data.size

end TileAtlas.Compress
