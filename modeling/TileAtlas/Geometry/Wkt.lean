import TileAtlas.Geometry.Polygon

/-!
# Well-known text

A geometry is written as the name of its kind and a nested list of points.  Names may be written
in any case.  A point has two ordinates, or up to four if the height and the measure are given
too; the first point settles how many the others have, unless the letters `Z`, `M` or `ZM` after
the name do.  Of the points only the first two ordinates matter here.
-/

namespace TileAtlas

inductive GeometryKind
  | point
  | lineString
  | linearRing
  | polygon
  | multiPoint
  | multiLineString
  | multiPolygon
  | collection
  deriving DecidableEq, Repr

namespace GeometryKind

def word : GeometryKind → String
  | point => "Point"
  | lineString => "LineString"
  | linearRing => "LinearRing"
  | polygon => "Polygon"
  | multiPoint => "MultiPoint"
  | multiLineString => "MultiLineString"
  | multiPolygon => "MultiPolygon"
  | collection => "GeometryCollection"

/-- The kinds by the beginning of their names, in the order in which they are tried. -/
def table : List (String × GeometryKind) := [
  ("POINT", point), ("LINESTRING", lineString), ("LINEARRING", linearRing), ("POLYGON", polygon),
  ("MULTIPOINT", multiPoint), ("MULTILINESTRING", multiLineString),
  ("MULTIPOLYGON", multiPolygon), ("GEOMETRYCOLLECTION", collection)]

def ofName? (name : String) : Option GeometryKind :=
  (table.find? fun entry => entry.1.toList.isPrefixOf name.toList).map (·.2)

end GeometryKind

/-- What is kept of a geometry: its kind, whether it has no points, and its polygons. -/
structure Geometry where
  kind : GeometryKind
  empty : Bool
  polygons : List Polygon
  deriving DecidableEq, Repr

namespace Wkt

/-- The words of well-known text. -/
inductive Token
  | opener
  | closer
  | comma
  | number (x : Binary64)
  | word (capitals : String)

/-- The token that a run of characters forms; the run is given backwards. -/
def Token.ofRun (run : List Char) : List Token :=
  if run.isEmpty then []
  else match Number.plainDouble? run.reverse with
    | some x => [.number x]
    | none => [.word (String.ofList (run.reverse.map Char.toUpper))]

/-- The tokens of a text, where the run of characters read so far is given backwards. -/
def tokensFrom : List Char → List Char → List Token
  | run, [] => Token.ofRun run
  | run, c :: rest =>
    if c = '(' then Token.ofRun run ++ .opener :: tokensFrom [] rest
    else if c = ')' then Token.ofRun run ++ .closer :: tokensFrom [] rest
    else if c = ',' then Token.ofRun run ++ .comma :: tokensFrom [] rest
    else if c = ' ' ∨ c = '\n' ∨ c = '\r' ∨ c = '\t' then Token.ofRun run ++ tokensFrom [] rest
    else tokensFrom (c :: run) rest

structure Ordinates where
  height : Bool
  measure : Bool
  settled : Bool

/-- What remains to be read. -/
structure Rest where
  tokens : List Token
  ordinates : Ordinates

abbrev Reader := StateT Rest Option

namespace Reader

def next : Reader Token := fun rest =>
  match rest.tokens with
  | [] => none
  | token :: tokens => some (token, { rest with tokens })

def peek? : Reader (Option Token) := fun rest => some (rest.tokens.head?, rest)

def word : Reader String := do
  match ← next with
  | .word w => pure w
  | _ => failure

def number : Reader Binary64 := do
  match ← next with
  | .number x => pure x
  | _ => failure

def moreOrdinates : Reader Bool := fun rest =>
  match rest.ordinates.settled, rest.tokens.head? with
  | false, some (.number _) => some (true, rest)
  | _, _ => some (false, rest)

def setOrdinates (change : Ordinates → Ordinates) : Reader Unit :=
  modify fun rest => { rest with ordinates := change rest.ordinates }

def point : Reader Point := do
  let x ← number
  let y ← number
  if ← moreOrdinates then setOrdinates ({ · with height := true })
  if (← get).ordinates.height then
    let _ ← number
    if ← moreOrdinates then setOrdinates ({ · with measure := true })
  if (← get).ordinates.measure then
    let _ ← number
  setOrdinates ({ · with settled := true })
  return ⟨x, y⟩

def declare (letters : String) : Reader Unit :=
  if letters = "Z" then setOrdinates fun _ => ⟨true, false, true⟩
  else if letters = "M" then setOrdinates fun _ => ⟨false, true, true⟩
  else if letters = "ZM" then setOrdinates fun _ => ⟨true, true, true⟩
  else pure ()

/-- The beginning of a list: a parenthesis, or the word for an empty list, which gives false. -/
def opening : Reader Bool := do
  let token ← next
  let token ← match token with
    | .word w =>
      if w = "Z" ∨ w = "M" ∨ w = "ZM" then do
        declare w
        next
      else pure token
    | _ => pure token
  match token with
  | .opener => pure true
  | .word w => if w = "EMPTY" then pure false else failure
  | _ => failure

def items {α : Type} (one : Reader α) : Nat → Reader (List α)
  | 0 => failure
  | fuel + 1 => do
    let a ← one
    match ← next with
    | .comma => return a :: (← items one fuel)
    | .closer => return [a]
    | _ => failure

def list {α : Type} (fuel : Nat) (one : Reader α) : Reader (List α) := do
  if ← opening then items one fuel else pure []

def enclosedPoint (fuel : Nat) : Reader (List Point) := do
  let points ← list fuel point
  if points.length ≤ 1 then pure points else failure

/-- The points of a list, all of which stand in parentheses of their own or none does. -/
def scatteredPoints (fuel : Nat) : Reader (List Point) := do
  if ← opening then
    match ← peek? with
    | some (.number _) => items point fuel
    | _ => return (← items (enclosedPoint fuel) fuel).flatten
  else pure []

def line (fuel : Nat) : Reader (List Point) := do
  let points ← list fuel point
  if points.length = 1 then failure else pure points

def ring (fuel : Nat) : Reader (List Point) := do
  let points ← list fuel point
  match points.head?, points.getLast? with
  | some a, some b =>
    if !a.x.isNaN && !a.y.isNaN && a.x.scaled = b.x.scaled && a.y.scaled = b.y.scaled &&
        3 ≤ points.length then pure points
    else failure
  | _, _ => pure []

/-- A polygon; where there is no outer ring there is no hole either. -/
def polygon (fuel : Nat) : Reader Polygon := do
  match ← list fuel (ring fuel) with
  | [] => pure ⟨[], []⟩
  | shell :: holes =>
    if shell.isEmpty && holes.any (!·.isEmpty) then failure
    else pure ⟨shell, holes⟩

def geometry : Nat → Reader Geometry
  | 0 => failure
  | fuel + 1 => do
    let name ← word
    let entered := (← get).ordinates
    let ends (letters : String) : Bool := letters.toList.isSuffixOf name.toList
    if ends "ZM" then declare "ZM"
    else if ends "M" then declare "M"
    else if ends "Z" then declare "Z"
    match GeometryKind.ofName? name with
    | none => failure
    | some kind =>
      let found ← match kind with
        | .point => do
          let points ← enclosedPoint fuel
          pure (points.all fun p => p.x.isNaN && p.y.isNaN, [])
        | .lineString => do pure ((← line fuel).isEmpty, [])
        | .linearRing => do pure ((← ring fuel).isEmpty, [])
        | .polygon => do
          let p ← polygon fuel
          pure (p.isEmpty, [p])
        | .multiPoint => do
          let points ← scatteredPoints fuel
          pure (points.all fun p => p.x.isNaN && p.y.isNaN, [])
        | .multiLineString => do
          let lines ← list fuel (line fuel)
          pure (lines.all (·.isEmpty), [])
        | .multiPolygon => do
          let polygons ← list fuel (polygon fuel)
          pure (polygons.all (·.isEmpty), polygons)
        | .collection => do
          let members ← list fuel (geometry fuel)
          pure (members.all (·.empty), [])
      setOrdinates fun _ => entered
      return ⟨kind, found.1, found.2⟩

end Reader

def parse? (text : String) : Option Geometry :=
  let tokens := tokensFrom [] text.toList
  match Reader.geometry (tokens.length + 1) ⟨tokens, ⟨false, false, false⟩⟩ with
  | some (geometry, rest) => if rest.tokens.isEmpty then some geometry else none
  | none => none

end Wkt

end TileAtlas
