import TileAtlas.Container.Table
import TileAtlas.Text.Case

/-!
# Containers

A container is a catalogue of named tables and views.  Queries and write statements name tables
and columns exactly as the catalogue spells them; only the two catalogue look-ups that take a name
from outside, `columnNames` and `insertRow`, ignore the case of ASCII letters.

A `Statement` is one write.  `Statement.check` finds what is wrong with it whatever its values
are, and `Statement.run` performs it or fails without effect.
-/

namespace TileAtlas

/-- A view.  Only its name, its columns and the table that it draws on are ever asked for. -/
structure View where
  name : String
  columns : List String
  source : String
  deriving DecidableEq, Repr

inductive ObjectKind
  | table
  | view
  deriving DecidableEq, Repr

def ObjectKind.word : ObjectKind → String
  | table => "table"
  | view => "view"

structure Container where
  tables : List Table
  views : List View
  deriving DecidableEq, Inhabited

namespace Container

def empty : Container := ⟨[], []⟩

def isEmpty (c : Container) : Bool := c.tables.isEmpty && c.views.isEmpty

def table? (c : Container) (name : String) : Option Table :=
  c.tables.find? (·.name = name)

def view? (c : Container) (name : String) : Option View :=
  c.views.find? (·.name = name)

def objectKind? (c : Container) (name : String) : Option ObjectKind :=
  if (c.table? name).isSome then some .table
  else if (c.view? name).isSome then some .view
  else none

/-- Whether two names are the same but for the case of ASCII letters. -/
def sameName (a b : String) : Bool := Text.lowerAscii a = Text.lowerAscii b

/-- The column names of the table or view of a name; none if there is no such entry. -/
def columnNames (c : Container) (name : String) : Except StatementError (List String) :=
  match c.tables.find? (sameName ·.name name) with
  | some t => .ok (t.columns.map (·.name))
  | none =>
    match c.views.find? (sameName ·.name name) with
    | some v =>
      if (c.tables.any (sameName ·.name v.source)) || (c.views.any (sameName ·.name v.source)) then
        .ok v.columns
      else .error (.noSuchTable ("main." ++ v.source))
    | none => .ok []

/-- The affinity of a column of a table. -/
def affinity (c : Container) (table column : String) : Affinity :=
  (c.table? table).elim .any (·.affinity column)

/-- The rows of a table, reduced to some columns, in an order of the table's rows. -/
def list (c : Container) (table : String) (columns : List String) (order : Table → List Row) :
    Except StatementError (List Row) :=
  match c.table? table with
  | none => .error (.noSuchTable table)
  | some t => (t.positions columns).map fun positions => (order t).map (Table.project positions)

/-- The rows of a table, reduced to some columns, in the order in which they were inserted. -/
def select (c : Container) (table : String) (columns : List String) :
    Except StatementError (List Row) :=
  c.list table columns Table.rows

def setTable (c : Container) (t : Table) : Container :=
  { c with tables := c.tables.map fun old => if old.name = t.name then t else old }

end Container

inductive Statement
  | createTable (table : Table)
  | createView (view : View)
  | insert (table : String) (given : List (String × Cell))
  | replace (table : String) (given : List (String × Cell))
  | insertRow (table : String) (cells : List Cell)
  | delete (table : String) (conditions : List (String × Cell))
  /-- Drops the rows of a table whose cell in a column is not among the cells of a column of
  another table. -/
  | deleteUnlisted (table column other otherColumn : String)
  | update (table column : String) (value : Cell) (conditions : List (String × Cell))

namespace Statement

open Container

def values : Statement → List Cell
  | insert _ given => given.map (·.2)
  | replace _ given => given.map (·.2)
  | insertRow _ cells => cells
  | delete _ conditions => conditions.map (·.2)
  | update _ _ value conditions => value :: conditions.map (·.2)
  | _ => []

/-- The table that a statement writes to; a view cannot be written to. -/
def target (c : Container) (name : String) : Except StatementError Table :=
  match c.table? name with
  | some t => .ok t
  | none => if (c.view? name).isSome then .error (.viewWritten name) else .error (.noSuchTable name)

def looseTarget (c : Container) (name : String) : Except StatementError Table :=
  match c.tables.find? (sameName ·.name name) with
  | some t => .ok t
  | none =>
    match c.views.find? (sameName ·.name name) with
    | some v => .error (.viewWritten v.name)
    | none => .error (.noSuchTable name)

def requireColumns (t : Table) (columns : List String) (error : String → StatementError) :
    Except StatementError Unit :=
  match columns.find? fun column => (t.position? column).isNone with
  | some column => .error (error column)
  | none => .ok ()

def check (c : Container) : Statement → Except StatementError Unit
  | createTable _ | createView _ => .ok ()
  | insert table given | replace table given => do
    let t ← target c table
    requireColumns t (given.map (·.1)) (.unknownColumn table)
  | insertRow _ [] => .error .noValues
  | insertRow table cells => do
    let t ← looseTarget c table
    if cells.length = t.columns.length then .ok ()
    else .error (.wrongWidth table t.columns.length cells.length)
  | delete table conditions => do
    let t ← target c table
    requireColumns t (conditions.map (·.1)) .noSuchColumn
  | deleteUnlisted table column other otherColumn => do
    let t ← target c table
    let u ← target c other
    requireColumns t [column] .noSuchColumn
    requireColumns u [otherColumn] .noSuchColumn
  | update table column _ conditions => do
    let t ← target c table
    requireColumns t (column :: conditions.map (·.1)) .noSuchColumn

/-- Whether a cell is not among some others.  Nothing is among none; null is not known to be
missing from any others. -/
def unlisted (listed : List Cell) (cell : Cell) : Bool :=
  listed.isEmpty || (!cell.isNull && !listed.any (cell.eqv ·))

def run (c : Container) : Statement → Except StatementError (Nat × Container)
  | createTable table => .ok (0, { c with tables := c.tables ++ [table] })
  | createView view => .ok (0, { c with views := c.views ++ [view] })
  | insert table given => do
    let t ← target c table
    let t ← t.insert (t.rowOf given)
    .ok (1, c.setTable t)
  | replace table given => do
    let t ← target c table
    let t ← t.replace (t.rowOf given)
    .ok (1, c.setTable t)
  | insertRow table cells => do
    let t ← looseTarget c table
    let t ← t.insert (List.zipWith (fun column cell => column.affinity.keep cell) t.columns cells)
    .ok (1, c.setTable t)
  | delete table conditions => do
    let t ← target c table
    let after := t.delete (t.agrees conditions)
    .ok (t.rows.length - after.rows.length, c.setTable after)
  | deleteUnlisted table column other otherColumn => do
    let t ← target c table
    let u ← target c other
    let joined := (t.affinity column).joined (u.affinity otherColumn)
    let listed := (u.rows.map fun row => joined.keep (u.cell row otherColumn)).filter (!·.isNull)
    let after := t.delete fun row => unlisted listed (joined.keep (t.cell row column))
    .ok (t.rows.length - after.rows.length, c.setTable after)
  | update table column value conditions => do
    let t ← target c table
    let after ← t.update column value (t.agrees conditions)
    .ok (t.rows.countP (t.agrees conditions), c.setTable after)

end Statement

end TileAtlas
