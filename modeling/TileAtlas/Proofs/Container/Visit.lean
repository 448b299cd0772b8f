import TileAtlas.Container.Visit
import TileAtlas.Proofs.Container.Catalogue
import TileAtlas.Proofs.Container.Order
import TileAtlas.Proofs.Order.Sort

/-!
# What does not depend on the order of rows

The orders in which queries visit the rows of a table are rearrangements of one another.  Two
queries that differ in nothing else fail alike, or give rearrangements of the same rows.
-/

namespace TileAtlas

/-- Two results that are the same failure, or lists of the same elements. -/
inductive Shuffled {ε α : Type} : Except ε (List α) → Except ε (List α) → Prop
  | failed (e : ε) : Shuffled (.error e) (.error e)
  | listed {l l' : List α} (h : l.Perm l') : Shuffled (.ok l) (.ok l')

namespace Shuffled

variable {ε α β : Type} {r r' : Except ε (List α)}

theorem ok_perm {l : List α} (h : Shuffled r r') (hr : r = .ok l) :
    ∃ l', r' = .ok l' ∧ l.Perm l' := by
  subst hr
  cases h with
  | listed h => exact ⟨_, rfl, h⟩

theorem of_ok {l : List α} (h : Shuffled r (.ok l)) : ∃ l', r = .ok l' ∧ l'.Perm l := by
  cases h with
  | listed h => exact ⟨_, rfl, h⟩

theorem bind {f f' : List α → Except ε (List β)} (h : Shuffled r r')
    (hf : ∀ l l', l.Perm l' → Shuffled (f l) (f' l')) : Shuffled (r >>= f) (r' >>= f') := by
  cases h with
  | failed e => exact .failed e
  | listed h => exact hf _ _ h

end Shuffled

/-! ### Orders of the rows of a table -/

namespace Table

/-- Rows are compared column by column. -/
theorem columnsLe_eq (t : Table) (columns : List String) (a b : Row) :
    t.columnsLe columns a b = (columns.foldr (fun column rest =>
      ((t.cell a column).compare (t.cell b column)).then rest) .eq).isLE := by
  induction columns with
  | nil => rfl
  | cons column rest ih =>
      rw [columnsLe, ih, List.foldr_cons]
      cases (t.cell a column).compare (t.cell b column) <;> rfl

theorem columnsLe_withRows (t : Table) (rows : List Row) (columns : List String) :
    columnsLe { t with rows } columns = t.columnsLe columns := by
  induction columns with
  | nil => rfl
  | cons column rest ih =>
      funext a b
      simp only [columnsLe, ih]
      rfl

theorem columnsLe_trans (t : Table) (columns : List String) (a b c : Row) :
    t.columnsLe columns a b → t.columnsLe columns b c → t.columnsLe columns a c := by
  induction columns with
  | nil => exact fun _ _ => rfl
  | cons column rest ih =>
      simp only [columnsLe]
      cases hab : (t.cell a column).compare (t.cell b column) with
      | gt => exact nofun
      | lt =>
          cases hbc : (t.cell b column).compare (t.cell c column) with
          | gt => exact fun _ h => nomatch h
          | lt => simp [Std.TransCmp.lt_trans hab hbc]
          | eq => simp [Std.TransCmp.lt_of_lt_of_eq hab hbc]
      | eq =>
          cases hbc : (t.cell b column).compare (t.cell c column) with
          | gt => exact fun _ h => nomatch h
          | lt => simp [Std.TransCmp.lt_of_eq_of_lt hab hbc]
          | eq =>
              rw [Std.TransCmp.eq_trans hab hbc]
              exact ih

theorem columnsLe_total (t : Table) (columns : List String) (a b : Row) :
    t.columnsLe columns a b || t.columnsLe columns b a := by
  induction columns with
  | nil => rfl
  | cons column rest ih =>
      simp only [columnsLe]
      cases hab : (t.cell a column).compare (t.cell b column) with
      | lt => rfl
      | gt =>
          rw [Std.OrientedCmp.gt_iff_lt.1 hab]
          rfl
      | eq =>
          rw [Std.OrientedCmp.eq_symm hab]
          exact ih

/-- Rows may be left out before they are sorted by some columns as well as after. -/
theorem filter_sorted (t : Table) (columns : List String) (p : Row → Bool) :
    (sortBy (t.columnsLe columns) t.rows).filter p =
      sortBy (columnsLe { t with rows := t.rows.filter p } columns) (t.rows.filter p) := by
  rw [columnsLe_withRows t (t.rows.filter p)]
  exact filter_sortBy (t.columnsLe_trans columns) (t.columnsLe_total columns) p t.rows

/-- Rows may be left out before a table is visited as well as after. -/
theorem filter_visited (t : Table) (a : Access) (p : Row → Bool) :
    (t.visited a).filter p = visited { t with rows := t.rows.filter p } a := by
  unfold visited
  show (if t.visitsByKey a then t.inKeyOrder else t.rows).filter p =
    if t.visitsByKey a then inKeyOrder { t with rows := t.rows.filter p } else t.rows.filter p
  split
  · exact t.filter_sorted t.key p
  · rfl

end Table

namespace Container

variable {c : Container} {name : String} {columns : List String} {order order' : Table → List Row}

theorem list_shuffled (horder : ∀ t, (order t).Perm (order' t)) :
    Shuffled (c.list name columns order) (c.list name columns order') := by
  unfold list
  cases c.table? name with
  | none => exact .failed _
  | some t =>
      dsimp only
      cases t.positions columns with
      | error why => exact .failed why
      | ok positions => exact .listed ((horder t).map _)

end Container

end TileAtlas
