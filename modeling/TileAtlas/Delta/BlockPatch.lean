import TileAtlas.Compress.Reader
import TileAtlas.Compress.Writer
import TileAtlas.Delta.Differ
import TileAtlas.Delta.Matching

/-!
# Block patches

A block patch holds three compressed blocks: the steps of a walk over the old payload, the
differences that the steps add, and the bytes that they put in.  Its header gives the lengths of
the first two blocks and of the new payload.
-/

namespace TileAtlas

namespace BlockPatch

/-- The mark of a block patch.  The last character is not looked at when a patch is read. -/
def mark : List UInt8 := [0x42, 0x53, 0x44, 0x49, 0x46, 0x46, 0x34, 0x30]

def signWeight : Nat := 0x8000000000000000

/-- An integer as eight bytes: its absolute value, least significant byte first, and its sign in
the last bit. -/
def writeInt (n : Int) : List UInt8 :=
  Bytes.leBytes 8 (if n < 0 then n.natAbs + signWeight else n.natAbs)

def readInt (b : Bytes) (i : Nat) : Except DeltaError Int :=
  if b.size < i + 8 then .error .shortNumber
  else
    let n := (Bytes.le64 b i).toNat
    .ok (if signWeight ≤ n then -((n - signWeight : Nat) : Int) else n)

def readBlock (b : Bytes) (start stop : Nat) : Except DeltaError Bytes :=
  match Compress.decompress (b.extract start stop) with
  | .ok block => .ok block
  | .error _ => .error .compression

def readSteps (b : Bytes) (i : Nat) : Nat → Except DeltaError (List DeltaStep)
  | 0 => .ok []
  | fuel + 1 =>
    if b.size ≤ i then .ok []
    else do
      let copied ← readInt b i
      let inserted ← readInt b (i + 8)
      let moved ← readInt b (i + 16)
      let rest ← readSteps b (i + 24) fuel
      return ⟨copied, inserted, moved⟩ :: rest

/-- A block patch with its blocks unpacked. -/
structure Contents where
  length : Nat
  steps : List DeltaStep
  differences : Bytes
  insertions : Bytes

def read (patch : Bytes) : Except DeltaError Contents := do
  if (Bytes.toList patch).take 7 ≠ mark.take 7 then throw .wrongMagic
  let stepsSize ← readInt patch 8
  let differencesSize ← readInt patch 16
  let length ← readInt patch 24
  if stepsSize < 0 ∨ differencesSize < 0 ∨ length < 0 then throw .negativeSize
  let stepsEnd := 32 + stepsSize.toNat
  if patch.size < stepsEnd then throw .cutShort
  let block ← readBlock patch 32 stepsEnd
  let steps ← readSteps block 0 (block.size + 1)
  let differencesEnd := stepsEnd + differencesSize.toNat
  if patch.size < differencesEnd then throw .cutShort
  let differences ← readBlock patch stepsEnd differencesEnd
  let insertions ← readBlock patch differencesEnd patch.size
  return ⟨length.toNat, steps, differences, insertions⟩

/-- Where the walk stands: in the old payload, in the differences, in the insertions. -/
structure Cursor where
  old : Int
  difference : Nat
  insertion : Nat

def oldByte (old : Bytes) (i : Int) : UInt8 :=
  if 0 ≤ i then Bytes.byteAt old i.toNat else 0

def walk (old : Bytes) (contents : Contents) (cursor : Cursor) (done : Array UInt8) :
    List DeltaStep → Except DeltaError (Array UInt8)
  | [] =>
    if done.size = contents.length ∧ cursor.difference = contents.differences.size ∧
        cursor.insertion = contents.insertions.size then .ok done
    else .error .leftOver
  | step :: rest =>
    let copied := step.copied.toNat
    let inserted := step.inserted.toNat
    if step.copied < 0 ∨ contents.length < done.size + copied ∨
        contents.differences.size < cursor.difference + copied then .error .overrun
    else if step.inserted < 0 ∨ contents.length < done.size + copied + inserted ∨
        contents.insertions.size < cursor.insertion + inserted then .error .overrun
    else
      let sums := (List.range copied).map fun k =>
        Bytes.byteAt contents.differences (cursor.difference + k) + oldByte old (cursor.old + k)
      let put := contents.insertions.extract cursor.insertion (cursor.insertion + inserted)
      walk old contents
        ⟨cursor.old + copied + step.moved, cursor.difference + copied, cursor.insertion + inserted⟩
        (done ++ sums.toArray ++ put.data) rest

def apply (old patch : Bytes) : Except DeltaError Bytes := do
  let contents ← read patch
  if 0x10000000000 ≤ contents.length then throw .tooLong
  let new ← walk old contents ⟨0, 0, 0⟩ #[] contents.steps
  return ⟨new⟩

/-- The differences that some steps add, where the walk stands at two positions. -/
def differencesOf (old new : Bytes) (i : Int) (j : Nat) : List DeltaStep → List UInt8
  | [] => []
  | step :: rest =>
    (List.range step.copied.toNat).map (fun k => Bytes.byteAt new (j + k) - oldByte old (i + k)) ++
      differencesOf old new (i + step.copied + step.moved) (j + (step.copied + step.inserted).toNat)
        rest

def insertionsOf (new : Bytes) (j : Nat) : List DeltaStep → List UInt8
  | [] => []
  | step :: rest =>
    let start := j + step.copied.toNat
    Bytes.toList (new.extract start (start + step.inserted.toNat)) ++
      insertionsOf new (start + step.inserted.toNat) rest

def diff (old new : Bytes) : Bytes :=
  let steps := Matching.steps old new
  let numbers := steps.flatMap fun step =>
    writeInt step.copied ++ writeInt step.inserted ++ writeInt step.moved
  let control := Bytes.toList (Compress.compress (Bytes.ofList numbers))
  let differences := Bytes.toList
    (Compress.compress (Bytes.ofList (differencesOf old new 0 0 steps)))
  let insertions := Bytes.toList (Compress.compress (Bytes.ofList (insertionsOf new 0 steps)))
  Bytes.ofList (mark ++ writeInt control.length ++ writeInt differences.length ++
    writeInt new.size ++ control ++ differences ++ insertions)

end BlockPatch

def Differ.block : Differ where
  diff old new := .ok (BlockPatch.diff old new)
  apply old patch :=
    match BlockPatch.apply old patch with
    | .ok new => .ok new
    | .error why => .error (undecodable why)

end TileAtlas
