import TileAtlas.Container.Basic
import TileAtlas.Number.Power
import TileAtlas.Order.Sort

/-!
# The order in which rows are visited

A query visits the rows of a table in the order in which they were inserted, or in the order of
the primary key where that is the cheaper way.  Which of the two it is shows wherever a query asks
for no order, asks for one in which some rows stand at the same place, or takes the first row only.

The choice is that of a database without statistics, for tables whose only index is that of the
key and whose columns have no declared width.
-/

namespace TileAtlas

/-- What a query asks of a table. -/
structure Access where
  /-- The columns that have to equal a given value. -/
  equal : List String
  /-- The columns that have to be within bounds. -/
  bounded : List String
  /-- The first column of the order asked for. -/
  sortedBy : Option String
  /-- The columns that are looked at. -/
  used : List String

namespace Table

variable (t : Table)

/-- Whether a row may stand before another by its cells in some columns. -/
def columnsLe : List String → Row → Row → Bool
  | [], _, _ => true
  | column :: rest, a, b =>
    match (t.cell a column).compare (t.cell b column) with
    | .lt => true
    | .gt => false
    | .eq => columnsLe rest a b

def inKeyOrder : List Row := sortBy (t.columnsLe t.key) t.rows

/-- Ten times the binary logarithm of a number, as the costs of queries are estimated. -/
def logEstimate (n : Nat) : Nat :=
  10 * n.log2 + [0, 2, 3, 5, 6, 7, 8, 9].getD (8 * n / twoTo n.log2 % 8) 0

/-- The estimated width of a row of some columns. -/
def width (columns : Nat) : Nat := logEstimate (4 * (columns + 1))

/-- Whether the key answers a query on some columns with less to read than the table. -/
def keyAnswers (columns : List String) : Bool :=
  columns.all t.key.contains && width t.key.length < width t.columns.length

/-- Whether a query visits the rows in the order of the key: because the first column of the key
has to equal a value or comes first in the order asked for, or because the key answers it. -/
def visitsByKey (a : Access) : Bool :=
  match t.key with
  | [] => false
  | first :: _ => a.equal.contains first || a.sortedBy = some first || t.keyAnswers a.used ||
      (a.used.all t.key.contains && a.bounded.contains first)

/-- The rows of a table in the order in which a query visits them. -/
def visited (a : Access) : List Row := if t.visitsByKey a then t.inKeyOrder else t.rows

variable {t} {a : Access}

theorem visited_of_key (h : t.visitsByKey a = true) : t.visited a = t.inKeyOrder := by
  rw [visited, h, if_pos rfl]

theorem visited_of_no_key (h : t.visitsByKey a = false) : t.visited a = t.rows := by
  rw [visited, h, if_neg Bool.false_ne_true]

variable (t)

theorem inKeyOrder_perm : t.inKeyOrder.Perm t.rows := sortBy_perm ..

theorem visited_perm (a : Access) : (t.visited a).Perm t.rows := by
  unfold visited
  split
  · exact t.inKeyOrder_perm
  · exact .refl _

end Table

/-- The rows of a table, reduced to some columns, in the order in which a query visits them. -/
def Container.visit (c : Container) (table : String) (columns : List String) (a : Access) :
    Except StatementError (List Row) :=
  c.list table columns (·.visited a)

end TileAtlas
