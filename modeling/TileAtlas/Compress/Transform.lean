import TileAtlas.Compress.Ranks
import TileAtlas.Compress.Bits

/-!
# Block transforms

Three reversible steps make a block fit for a prefix code: runs of four or more equal bytes are
shortened, the rotations of the block are sorted and its last column is kept, and each byte is
replaced by its place in a list that moves what was used to the front.  Runs of zeros among these
places are counted in the digits one and two.
-/

namespace TileAtlas.Compress

/-! ### Runs of equal bytes -/

def writtenRun (b : UInt8) (count : Nat) : List UInt8 :=
  if count < 4 then List.replicate count b
  else [b, b, b, b, UInt8.ofNat (count - 4)]

def shortenFrom (b : UInt8) (count : Nat) (done : Array UInt8) : List UInt8 → Array UInt8
  | [] => done ++ (writtenRun b count).toArray
  | c :: rest =>
    if c = b ∧ count < 255 then shortenFrom b (count + 1) done rest
    else shortenFrom c 1 (done ++ (writtenRun b count).toArray) rest

def shortenRuns : List UInt8 → Array UInt8
  | [] => #[]
  | b :: rest => shortenFrom b 1 #[] rest

/-- Restores runs, where the last byte has come `count` times.  After the fourth time the next
byte tells how many more there are. -/
def restoreFrom (last : UInt8) (count : Nat) (done : Array UInt8) :
    List UInt8 → Except StreamError (Array UInt8)
  | [] => if count = 4 then .error .corrupt else .ok done
  | c :: rest =>
    if count = 4 then
      restoreFrom last 0 (done ++ Array.replicate c.toNat last) rest
    else if c = last ∧ 0 < count then restoreFrom last (count + 1) (done.push c) rest
    else restoreFrom c 1 (done.push c) rest

def restoreRuns (bytes : List UInt8) : Except StreamError (Array UInt8) :=
  restoreFrom 0 0 #[] bytes

/-! ### Rotations -/

def lastColumn (block : Array UInt8) : Array UInt8 × Nat :=
  let size := block.size
  let order := sortContinuations size (fun i => (block.getD i 0).toNat)
    (fun i steps => (i + steps) % size)
  (order.toArray.map fun i => block.getD ((i + size - 1) % size) 0, order.idxOf 0)

def columnLinks (last : Array UInt8) : Array Nat :=
  let counts := last.foldl (fun counts b => counts.modify b.toNat (· + 1)) (Array.replicate 256 0)
  let starts := (counts.foldl
    (fun (state : Array Nat × Nat) count => (state.1.push state.2, state.2 + count)) (#[], 0)).1
  ((List.range last.size).foldl
    (fun (state : Array Nat × Array Nat) i =>
      let b := (last.getD i 0).toNat
      (state.1.setIfInBounds (state.2.getD b 0) i, state.2.modify b (· + 1)))
    (Array.replicate last.size 0, starts)).1

def followLinks (last : Array UInt8) (links : Array Nat) :
    Nat → Nat → Array UInt8 → Array UInt8
  | 0, _, done => done
  | steps + 1, place, done =>
    let next := links.getD place 0
    followLinks last links steps next (done.push (last.getD next 0))

def ofLastColumn (last : Array UInt8) (place : Nat) : Array UInt8 :=
  followLinks last (columnLinks last) last.size place #[]

/-! ### Moving to the front -/

def takeOut {α : Type} : Nat → List α → Option (α × List α)
  | _, [] => none
  | 0, a :: rest => some (a, rest)
  | i + 1, a :: rest => (takeOut i rest).map fun (b, others) => (b, a :: others)

/-- The places of bytes in a list that moves what was used to the front, put after those that
are done. -/
def placesFrom (front : List UInt8) (done : Array Nat) : List UInt8 → Array Nat
  | [] => done
  | b :: rest => placesFrom (b :: front.erase b) (done.push (front.idxOf b)) rest

/-! ### Runs of zeros -/

/-- The digits one and two of a number in the system in which they stand for one and two. -/
def runDigits : Nat → Nat → List Nat
  | 0, _ => []
  | _, 0 => []
  | fuel + 1, n =>
    if n % 2 = 1 then 0 :: runDigits fuel (n / 2) else 1 :: runDigits fuel (n / 2 - 1)

/-- The symbols of places, put after those that are done, where some zeros are under way: zero and
one are the digits of a run of zeros, any other place comes one higher. -/
def symbolsFrom (zeros : Nat) (done : Array Nat) : List Nat → Array Nat
  | [] => done ++ (runDigits (zeros + 1) zeros).toArray
  | 0 :: rest => symbolsFrom (zeros + 1) done rest
  | place :: rest =>
    symbolsFrom 0 ((done ++ (runDigits (zeros + 1) zeros).toArray).push (place + 1)) rest

def emitRun (limit count : Nat) (front : List UInt8) (done : Array UInt8) :
    Except StreamError (Array UInt8) :=
  if done.size + count ≤ limit then .ok (done ++ Array.replicate count (front.headD 0))
  else .error .corrupt

/-- The bytes that symbols stand for, where a run of zeros is under way: its length so far and
the weight of its next digit. -/
def bytesOfSymbols (limit : Nat) (front : List UInt8) (zeros weight : Nat) (done : Array UInt8) :
    List Nat → Except StreamError (Array UInt8)
  | [] => emitRun limit zeros front done
  | 0 :: rest =>
    if 0x200000 ≤ weight then .error .corrupt
    else bytesOfSymbols limit front (zeros + weight) (2 * weight) done rest
  | 1 :: rest =>
    if 0x200000 ≤ weight then .error .corrupt
    else bytesOfSymbols limit front (zeros + 2 * weight) (2 * weight) done rest
  | symbol :: rest =>
    match emitRun limit zeros front done, takeOut (symbol - 1) front with
    | .ok done, some (b, others) =>
      if done.size < limit then bytesOfSymbols limit (b :: others) 0 1 (done.push b) rest
      else .error .corrupt
    | _, _ => .error .corrupt

end TileAtlas.Compress
