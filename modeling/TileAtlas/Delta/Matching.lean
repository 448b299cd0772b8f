import TileAtlas.Bytes.Basic
import TileAtlas.Compress.Ranks

/-!
# Matching payloads

A new payload is described as a walk over the old one.  Each step adds differences to a stretch
of the old payload, puts in some bytes that have no counterpart, and moves on to the place where
the next stretch begins.  Stretches grow from exact matches as long as more bytes agree than
differ.
-/

namespace TileAtlas

structure DeltaStep where
  copied : Int
  inserted : Int
  moved : Int
  deriving DecidableEq, Repr

namespace Matching

/-- The number of bytes, at most `limit`, that agree from two positions on, counted on from `n`. -/
def agreeing (old new : Bytes) (i j n : Nat) : Nat → Nat
  | 0 => n
  | limit + 1 =>
    if i + n < old.size ∧ j + n < new.size ∧
        Bytes.byteAt old (i + n) = Bytes.byteAt new (j + n) then
      agreeing old new i j (n + 1) limit
    else n

def isBefore (old new : Bytes) (i j : Nat) : Bool :=
  let n := agreeing old new i j 0 (old.size - i)
  if i + n < old.size ∧ j + n < new.size then
    Bytes.byteAt old (i + n) < Bytes.byteAt new (j + n)
  else false

/-- The longest match for a position among the sorted positions from `low` to `high`: its length
and where it starts. -/
def search (old new : Bytes) (sorted : Array Nat) (j : Nat) : Nat → Nat → Nat → Nat × Nat
  | 0, _, _ => (0, 0)
  | fuel + 1, low, high =>
    if high < low + 2 then
      let a := sorted.getD low 0
      let b := sorted.getD high 0
      let x := agreeing old new a j 0 old.size
      let y := agreeing old new b j 0 old.size
      if y < x then (x, a) else (y, b)
    else
      let middle := low + (high - low) / 2
      if isBefore old new (sorted.getD middle 0) j then search old new sorted j fuel middle high
      else search old new sorted j fuel low middle

def sortedPositions (old : Bytes) : Array Nat :=
  (Compress.sortContinuations (old.size + 1)
    (fun i => if i < old.size then (Bytes.byteAt old i).toNat + 1 else 0)
    (fun i steps => i + steps)).toArray

/-- Where the walk stands: the stretch under way began at `newFrom` and `oldFrom`, and matching
positions of the old payload lie `offset` ahead of those of the new one. -/
structure Walk where
  newFrom : Nat
  oldFrom : Nat
  offset : Int

/-- Whether a position of the new payload agrees with its counterpart in the old one. -/
def Walk.agrees (w : Walk) (old new : Bytes) (j : Nat) : Bool :=
  let i := (j : Int) + w.offset
  0 ≤ i && i < old.size && Bytes.byteAt old i.toNat == Bytes.byteAt new j

/-- Goes on to the next position whose longest match beats the stretch under way: gives the
position, the length and the start of the match, and how many bytes of it the stretch agrees with
anyway.  So far `score` bytes up to `counted` agree. -/
def nextMatch (old new : Bytes) (sorted : Array Nat) (w : Walk) :
    Nat → Nat → Nat → Nat → Nat × Nat × Nat × Nat
  | 0, j, _, score => (j, 0, 0, score)
  | fuel + 1, j, counted, score =>
    if new.size ≤ j then (j, 0, 0, score)
    else
      let (length, start) := search old new sorted j (old.size + 2) 0 old.size
      let upTo := max counted (j + length)
      let score := score +
        (List.range' counted (upTo - counted)).countP (fun k => w.agrees old new k)
      if (length = score ∧ length ≠ 0) ∨ score + 8 < length then (j, length, start, score)
      else
        let score := if w.agrees old new j then score - 1 else score
        nextMatch old new sorted w fuel (j + 1) upTo score

/-- The length at which a stretch is best: where the agreeing bytes lead the differing ones by the
most. -/
def bestLength (agrees : Nat → Bool) (limit : Nat) : Nat :=
  ((List.range limit).foldl
    (fun (best, agreeing, most) i =>
      let agreeing : Int := if agrees i then agreeing + 1 else agreeing
      let lead := agreeing * 2 - (i + 1 : Nat)
      if most < lead then (i + 1, agreeing, lead) else (best, agreeing, most))
    (0, 0, 0)).1

/-- Where two overlapping stretches are best divided: the first keeps that much of the overlap. -/
def bestDivision (first second : Nat → Bool) (overlap : Nat) : Nat :=
  ((List.range overlap).foldl
    (fun (best, gain, most) i =>
      let gain : Int := gain + (if first i then 1 else 0) - (if second i then 1 else 0)
      if most < gain then (i + 1, gain, gain) else (best, gain, most))
    (0, 0, 0)).1

def same (old new : Bytes) (i j : Nat) : Bool := Bytes.byteAt old i == Bytes.byteAt new j

/-- Ends the stretch under way where a match at `j` and `start` has been found, or the payload
ends at `j`: gives the step and where the next stretch begins. -/
def closeStretch (old new : Bytes) (w : Walk) (j start : Nat) : DeltaStep × Walk :=
  let forward := bestLength (fun i => same old new (w.oldFrom + i) (w.newFrom + i))
    (min (j - w.newFrom) (old.size - w.oldFrom))
  let backward := if j < new.size then
      bestLength (fun i => same old new (start - (i + 1)) (j - (i + 1))) (min (j - w.newFrom) start)
    else 0
  let overlap := (w.newFrom + forward) - (j - backward)
  let kept := bestDivision
    (fun i => same old new (w.oldFrom + forward - overlap + i) (w.newFrom + forward - overlap + i))
    (fun i => same old new (start - backward + i) (j - backward + i)) overlap
  let forward := forward - (overlap - kept)
  let backward := backward - kept
  let newFrom := j - backward
  let oldFrom := start - backward
  (⟨forward, (newFrom : Int) - (w.newFrom + forward), (oldFrom : Int) - (w.oldFrom + forward)⟩,
    ⟨newFrom, oldFrom, (start : Int) - j⟩)

def stepsFrom (old new : Bytes) (sorted : Array Nat) (w : Walk) (j length : Nat) :
    Nat → List DeltaStep
  | 0 => []
  | fuel + 1 =>
    if new.size ≤ j then []
    else
      let next := j + length
      let (j, length, start, score) := nextMatch old new sorted w (new.size + 1) next next 0
      if length ≠ score ∨ new.size ≤ j then
        let (step, w) := closeStretch old new w j start
        step :: stepsFrom old new sorted w j length fuel
      else stepsFrom old new sorted w j length fuel

def steps (old new : Bytes) : List DeltaStep :=
  stepsFrom old new (sortedPositions old) ⟨0, 0, 0⟩ 0 0 (new.size + 2)

end Matching

end TileAtlas
