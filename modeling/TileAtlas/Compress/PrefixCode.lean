import TileAtlas.Compress.Bits
import TileAtlas.Order.Sort

/-!
# Prefix codes

A prefix code is given by the lengths of its code words alone: words of the same length are
counted up in the order of their symbols, and shorter words come first.
-/

namespace TileAtlas.Compress

/-! ### Lengths from weights -/

inductive CodeTree
  | leaf (symbol : Nat)
  | node (left right : CodeTree)

def CodeTree.depths (depth : Nat) : CodeTree → List (Nat × Nat)
  | leaf symbol => [(symbol, depth)]
  | node left right => left.depths (depth + 1) ++ right.depths (depth + 1)

def joinTrees : Nat → List (Nat × CodeTree) → List (Nat × CodeTree)
  | fuel + 1, a :: b :: rest =>
    joinTrees fuel (insertBy (fun x y => x.1 ≤ y.1) (a.1 + b.1, .node a.2 b.2) rest)
  | _, trees => trees

def treeLengths (weights : List Nat) : List Nat :=
  let leaves := weights.zipIdx.map fun (weight, symbol) => (weight, CodeTree.leaf symbol)
  match joinTrees weights.length (sortBy (fun x y => x.1 ≤ y.1) leaves) with
  | (_, tree) :: _ =>
    let depths := tree.depths 0
    (List.range weights.length).map fun symbol => max 1 ((depths.lookup symbol).getD 1)
  | [] => []

/-- The lengths for given weights, none above 17: the weights are levelled until that is so. -/
def codeLengths : Nat → List Nat → List Nat
  | 0, weights => weights.map fun _ => 9
  | fuel + 1, weights =>
    let lengths := treeLengths weights
    if lengths.all (· ≤ 17) then lengths
    else codeLengths fuel (weights.map fun weight => weight / 2 + 1)

/-! ### Words from lengths -/

/-- The symbols of a code in the order of their words, with the lengths of the words. -/
def wordOrder (lengths : List Nat) : List (Nat × Nat) :=
  sortBy (fun a b => a.1 ≤ b.1) lengths.zipIdx

def wordsFrom (next length : Nat) : List (Nat × Nat) → List (Nat × List Bool)
  | [] => []
  | (width, symbol) :: rest =>
    let word := next * twoTo (width - length)
    (symbol, bits width word) :: wordsFrom (word + 1) width rest

def codeWords (lengths : List Nat) : Array (List Bool) :=
  (wordsFrom 0 0 (wordOrder lengths)).foldl
    (fun words (symbol, word) => words.setIfInBounds symbol word)
    (Array.replicate lengths.length [])

/-! ### Reading words -/

/-- What reading a code needs: how many words have each length, and the symbols in the order of
their words. -/
structure CodeReader where
  counts : Array Nat
  symbols : Array Nat

def CodeReader.ofLengths (lengths : List Nat) : CodeReader :=
  ⟨lengths.foldl (fun counts length => counts.modify length (· + 1)) (Array.replicate 21 0),
    ((wordOrder lengths).map (·.2)).toArray⟩

/-- Reads on a word of which `length` bits with value `word` have been read; the first word of
this length is `first` and stands at place `index` in the order. -/
def CodeReader.readFrom (code : CodeReader) (length word first index : Nat) :
    Nat → BitReader Nat
  | 0 => throw .corrupt
  | fuel + 1 => do
    let b ← BitReader.bit
    let word := 2 * word + b.toNat
    let first := 2 * first
    let count := code.counts.getD (length + 1) 0
    if first ≤ word ∧ word < first + count then
      return code.symbols.getD (index + (word - first)) 0
    else code.readFrom (length + 1) word (first + count) (index + count) fuel

def CodeReader.read (code : CodeReader) : BitReader Nat := code.readFrom 0 0 0 0 20

end TileAtlas.Compress
