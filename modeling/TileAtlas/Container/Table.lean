import TileAtlas.Container.Cell
import TileAtlas.Number.Reading

/-!
# Tables

A table is a list of columns and a list of rows in the order in which they were inserted.  A
column may turn numbers into texts or texts into numbers as they come in, may refuse null, may have
a cell of its own for rows that give it none, and may belong to the primary key, whose values no two
rows share.

This is all that a table has here.  Texts are compared character by character; there are no other
collations, no checks, no indexes or constraints of uniqueness but that of the primary key, no
triggers, no generated columns and no clauses that say what a broken rule does.
-/

namespace TileAtlas

/-- What a column does to the cells that are stored in it or compared with it. -/
inductive Affinity
  | any
  /-- Texts that denote numbers become numbers, and whole doubles become integers. -/
  | integer
  | text
  deriving DecidableEq, Repr

namespace Affinity

def keepReal (x : Binary64) : Cell :=
  match x.toInt? with
  | some n => if -0x8000000000000000 < n ∧ n < 0x7fffffffffffffff then .int n else .real x
  | none => .real x

def keepText (s : String) : Cell :=
  let blank (c : Char) : Bool := c = ' ' || (9 ≤ c.toNat && c.toNat ≤ 13)
  let chars := ((s.toList.dropWhile blank).reverse.dropWhile blank).reverse
  let (negative, rest) := Number.splitSign chars
  if !rest.isEmpty ∧ rest.all Text.isAsciiDigit then
    let n : Int := Text.digitsValue rest
    let n := if negative then -n else n
    if (Cell.int n).fits then .int n else keepReal (Number.nearest negative rest 0)
  else match Number.magnitude? rest with
    | some (digits, e) => keepReal (Number.nearest negative digits e)
    | none => .text s

def keep : Affinity → Cell → Cell
  | integer, .real x => keepReal x
  | integer, .text s => keepText s
  | text, .int n => .text (toString n)
  | text, .real x => .text x.columnText
  | _, c => c

/-- What is done to the cells of two columns where a query compares them with each other: numbers
are made of texts if either of the columns does so. -/
def joined (a b : Affinity) : Affinity := if a = integer || b = integer then integer else any

/-- What a number is compared as with a cell of a column.  Among the texts of a column of texts it
is a text. -/
def operand : Affinity → Int → Cell → Cell
  | text, n, .text _ => .text (toString n)
  | _, n, _ => .int n

@[simp] theorem joined_text : text.joined text = any := rfl

@[simp] theorem joined_any : any.joined any = any := rfl

@[simp] theorem keep_any (c : Cell) : any.keep c = c := by
  cases c <;> rfl

@[simp] theorem operand_any (n : Int) (c : Cell) : any.operand n c = .int n := rfl

@[simp] theorem operand_integer (n : Int) (c : Cell) : integer.operand n c = .int n := rfl

@[simp] theorem operand_int (a : Affinity) (m n : Int) : a.operand n (.int m) = .int n := by
  cases a <;> rfl

end Affinity

structure Column where
  name : String
  affinity : Affinity
  required : Bool
  /-- The cell of a row that is given none for the column. -/
  fallback : Cell
  deriving DecidableEq

namespace Column

def free (name : String) : Column := ⟨name, .any, false, .null⟩

def number (name : String) : Column := ⟨name, .integer, true, .null⟩

def word (name : String) (required : Bool) : Column := ⟨name, .text, required, .null⟩

def payload (name : String) : Column := ⟨name, .any, false, .null⟩

end Column

abbrev Row := List Cell

/-- Why a statement or a query on a container fails. -/
inductive StatementError
  | noSuchTable (table : String)
  | noSuchColumn (column : String)
  | unknownColumn (table column : String)
  | wrongWidth (table : String) (columns values : Nat)
  | noValues
  | viewWritten (view : String)
  | missing (table column : String)
  | duplicate (table : String) (columns : List String)
  | readOnly
  deriving DecidableEq, Repr

def StatementError.message : StatementError → String
  | noSuchTable table => "no such table: " ++ table
  | noSuchColumn column => "no such column: " ++ column
  | unknownColumn table column => "table " ++ table ++ " has no column named " ++ column
  | wrongWidth table columns values =>
    "table " ++ table ++ " has " ++ toString columns ++ " columns but " ++ toString values ++
      " values were supplied"
  | noValues => "near \")\": syntax error"
  | viewWritten view => "cannot modify " ++ view ++ " because it is a view"
  | missing table column => "NOT NULL constraint failed: " ++ table ++ "." ++ column
  | duplicate table columns =>
    "UNIQUE constraint failed: " ++ ", ".intercalate (columns.map fun c => table ++ "." ++ c)
  | readOnly => "attempt to write a readonly database"

structure Table where
  name : String
  columns : List Column
  /-- The columns of the primary key; none if the table has no key. -/
  key : List String
  rows : List Row
  deriving DecidableEq

namespace Table

def position? (t : Table) (column : String) : Option Nat :=
  t.columns.findIdx? fun c => c.name = column

def positions (t : Table) : List String → Except StatementError (List Nat)
  | [] => .ok []
  | column :: rest =>
    match t.position? column with
    | none => .error (.noSuchColumn column)
    | some i => (t.positions rest).map (i :: ·)

def project (positions : List Nat) (row : Row) : Row :=
  positions.map fun i => row.getD i .null

def cell (t : Table) (row : Row) (column : String) : Cell :=
  match t.position? column with
  | some i => row.getD i .null
  | none => .null

/-- The row that results from giving cells for some columns. -/
def rowOf (t : Table) (given : List (String × Cell)) : Row :=
  t.columns.map fun c => c.affinity.keep ((given.lookup c.name).getD c.fallback)

/-- The affinity of a column. -/
def affinity (t : Table) (column : String) : Affinity :=
  (t.columns.find? (·.name = column)).elim .any (·.affinity)

def agrees (t : Table) (conditions : List (String × Cell)) (row : Row) : Bool :=
  conditions.all fun (column, value) =>
    match t.columns.find? (·.name = column) with
    | some c => (t.cell row column).eqv (c.affinity.keep value)
    | none => false

def sameKey (t : Table) (a b : Row) : Bool :=
  !t.key.isEmpty && t.key.all fun column => (t.cell a column).eqv (t.cell b column)

def missingColumn? (t : Table) (row : Row) : Option String :=
  (t.columns.find? fun c => c.required && (t.cell row c.name).isNull).map (·.name)

/-- The table with a row added at the end, if its required columns are filled and its key is new. -/
def insert (t : Table) (row : Row) : Except StatementError Table :=
  match t.missingColumn? row with
  | some column => .error (.missing t.name column)
  | none =>
    if t.rows.any (t.sameKey row) then .error (.duplicate t.name t.key)
    else .ok { t with rows := t.rows ++ [row] }

/-- The table with a row added at the end in place of the rows that share its key. -/
def replace (t : Table) (row : Row) : Except StatementError Table :=
  match t.missingColumn? row with
  | some column => .error (.missing t.name column)
  | none => .ok { t with rows := t.rows.filter (fun r => !t.sameKey row r) ++ [row] }

def delete (t : Table) (condition : Row → Bool) : Table :=
  { t with rows := t.rows.filter fun r => !condition r }

def setCell (t : Table) (column : String) (value : Cell) (row : Row) : Row :=
  match t.position? column, t.columns.find? (·.name = column) with
  | some i, some c => row.set i (c.affinity.keep value)
  | _, _ => row

/-- Replaces one cell in each row that satisfies a condition, keeping the key and the required
columns sound after every row.  The rows before the current one have been dealt with. -/
def updateFrom (t : Table) (column : String) (value : Cell) (condition : Row → Bool) :
    List Row → List Row → Except StatementError (List Row)
  | done, [] => .ok done
  | done, row :: rest =>
    if condition row then
      let changed := t.setCell column value row
      match t.missingColumn? changed with
      | some missing => .error (.missing t.name missing)
      | none =>
        if (done ++ rest).any (t.sameKey changed) then .error (.duplicate t.name t.key)
        else updateFrom t column value condition (done ++ [changed]) rest
    else updateFrom t column value condition (done ++ [row]) rest

def update (t : Table) (column : String) (value : Cell) (condition : Row → Bool) :
    Except StatementError Table :=
  (t.updateFrom column value condition [] t.rows).map fun rows => { t with rows }

end Table

end TileAtlas
