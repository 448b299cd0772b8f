import TileAtlas.Proofs.Container.Session

/-!
# Tables of any container

A container that another tool has made may have tables with other columns than those that are asked
for.  What is read from a table and what a statement does to it are given here by its cells in the
columns that are named.
-/

namespace TileAtlas

namespace Table

variable {t : Table} {column : String} {columns : List String}

/-- Whether a table has some columns. -/
def Offers (t : Table) (columns : List String) : Prop :=
  ∀ column ∈ columns, (t.position? column).isSome

/-- Whether a table keeps a cell in a column as it is. -/
def Keeps (t : Table) (column : String) (value : Cell) : Prop :=
  ∀ c ∈ t.columns, c.name = column → c.affinity.keep value = value

/-- Whether a table keeps every text in a column as it is. -/
def KeepsTexts (t : Table) (column : String) : Prop :=
  ∀ c ∈ t.columns, c.name = column → c.affinity ≠ .integer

theorem position?_isSome_iff : (t.position? column).isSome ↔ column ∈ t.columns.map (·.name) := by
  simp [position?, List.findIdx?_isSome]

/-- A new row has in each column what the column makes of the cell that is given for it, or else of
the column's own. -/
theorem cell_rowOf (hcolumn : (t.position? column).isSome) (given : List (String × Cell)) :
    ∃ c ∈ t.columns, c.name = column ∧ t.columns.find? (·.name = column) = some c ∧
      t.cell (t.rowOf given) column = c.affinity.keep ((given.lookup column).getD c.fallback) := by
  obtain ⟨i, hi⟩ := Option.isSome_iff_exists.1 hcolumn
  obtain ⟨hlt, hname, hbefore⟩ := List.findIdx?_eq_some_iff_getElem.1 hi
  refine ⟨t.columns[i], List.getElem_mem hlt, of_decide_eq_true hname, ?_, ?_⟩
  · exact List.find?_eq_some_iff_getElem.2
      ⟨hname, i, hlt, rfl, fun j hj => by simpa using hbefore j hj⟩
  · have hname : t.columns[i].name = column := of_decide_eq_true hname
    simp [cell, hi, rowOf, hlt, hname]

/-- A cell that its column keeps is found there again. -/
theorem Keeps.cell_rowOf {value : Cell} (hkeeps : t.Keeps column value)
    (hcolumn : (t.position? column).isSome) {given : List (String × Cell)}
    (hgiven : given.lookup column = some value) : t.cell (t.rowOf given) column = value := by
  obtain ⟨c, hc, hname, -, hcell⟩ := Table.cell_rowOf hcolumn given
  rw [hcell, hgiven, Option.getD_some, hkeeps c hc hname]

theorem KeepsTexts.keeps (hkeeps : t.KeepsTexts column) {id : Cell}
    (hid : id = .null ∨ ∃ s, id = .text s) : t.Keeps column id := by
  intro c hc hname
  have haffinity := hkeeps c hc hname
  generalize c.affinity = affinity at haffinity
  rcases hid with rfl | ⟨s, rfl⟩
  · cases affinity <;> rfl
  · cases affinity with
    | integer => exact absurd rfl haffinity
    | _ => rfl

/-- A text or null that is given for a column that keeps texts is found there again. -/
theorem KeepsTexts.cell_rowOf (hkeeps : t.KeepsTexts column)
    (hcolumn : (t.position? column).isSome) {given : List (String × Cell)} {id : Cell}
    (hgiven : given.lookup column = some id) (hid : id = .null ∨ ∃ s, id = .text s) :
    t.cell (t.rowOf given) column = id :=
  (hkeeps.keeps hid).cell_rowOf hcolumn hgiven

theorem positions_eq (hcolumns : t.Offers columns) :
    ∃ positions, t.positions columns = .ok positions ∧
      ∀ row, project positions row = columns.map (t.cell row) := by
  induction columns with
  | nil => exact ⟨[], rfl, fun row => rfl⟩
  | cons column rest ih =>
      obtain ⟨positions, hrest, hproject⟩ := ih fun c hc => hcolumns c (List.mem_cons_of_mem _ hc)
      obtain ⟨i, hi⟩ := Option.isSome_iff_exists.1 (hcolumns column (List.mem_cons_self ..))
      refine ⟨i :: positions, by rw [Table.positions, hi, hrest]; rfl, fun row => ?_⟩
      have hcell : t.cell row column = row.getD i .null := by rw [cell, hi]
      rw [List.map_cons, hcell, ← hproject row]
      rfl

theorem insert_rows {t' : Table} {row : Row} (h : t.insert row = .ok t') :
    t' = { t with rows := t.rows ++ [row] } := by
  unfold insert at h
  split at h
  · cases h
  · split at h
    · cases h
    · exact (Except.ok.inj h).symm

end Table

namespace Container

variable {c : Container} {t : Table} {name : String}

theorem name_of_table? (h : c.table? name = some t) : t.name = name :=
  of_decide_eq_true (List.find?_some (p := fun old : Table => decide (old.name = name)) h)

theorem list_eq (h : c.table? name = some t) {columns : List String} (hcolumns : t.Offers columns)
    (order : Table → List Row) :
    c.list name columns order = .ok ((order t).map fun row => columns.map (t.cell row)) := by
  obtain ⟨positions, hpositions, hproject⟩ := Table.positions_eq hcolumns
  simp only [list, h, hpositions, Except.map]
  exact congrArg Except.ok (List.map_congr_left fun row _ => hproject row)

theorem table?_setTable (h : c.table? name = some t) (rows : List Row) :
    (c.setTable { t with rows }).table? name = some { t with rows } := by
  have hname := name_of_table? h
  subst hname
  obtain ⟨tables, views⟩ := c
  simp only [table?, setTable] at h ⊢
  induction tables with
  | nil => simp at h
  | cons first rest ih =>
      by_cases hname : first.name = t.name
      · simp [hname]
      · rw [List.map_cons, if_neg hname, List.find?_cons_of_neg (by simp [hname])]
        exact ih (by rwa [List.find?_cons_of_neg (by simp [hname])] at h)

theorem table?_setTable_of_ne {other : String} (hother : other ≠ t.name) :
    (c.setTable t).table? other = c.table? other := by
  obtain ⟨tables, views⟩ := c
  simp only [table?, setTable]
  induction tables with
  | nil => rfl
  | cons first rest ih =>
      by_cases hfirst : first.name = t.name
      · rw [List.map_cons, if_pos hfirst, List.find?_cons_of_neg (by simp [hother.symm]), ih,
          List.find?_cons_of_neg (by simp [hfirst, hother.symm])]
      · rw [List.map_cons, if_neg hfirst, List.find?_cons, List.find?_cons, ih]

theorem target_eq_ok_iff : Statement.target c name = .ok t ↔ c.table? name = some t := by
  unfold Statement.target
  cases htable : c.table? name with
  | some t' => simp
  | none =>
      simp only [reduceCtorEq, iff_false]
      split <;> simp

theorem requireColumns_of_offers {error : String → StatementError} {columns : List String}
    (hcolumns : t.Offers columns) : Statement.requireColumns t columns error = .ok () := by
  have hnone : columns.find? (fun column => (t.position? column).isNone) = none :=
    List.find?_eq_none.2 fun column hcolumn => by
      simpa [← Option.isSome_iff_ne_none] using hcolumns column hcolumn
  simp only [Statement.requireColumns, hnone]

/-- What an insertion that is carried out has done. -/
theorem run_insert {given : List (String × Cell)} {touched : Nat} {contents : Container}
    (hrun : Statement.run c (.insert name given) = .ok (touched, contents)) :
    ∃ t, c.table? name = some t ∧
      contents = c.setTable { t with rows := t.rows ++ [t.rowOf given] } := by
  simp only [Statement.run, bind, Except.bind] at hrun
  cases htarget : Statement.target c name with
  | error why => simp [htarget] at hrun
  | ok t =>
      cases hinsert : t.insert (t.rowOf given) with
      | error why => simp [htarget, hinsert] at hrun
      | ok t' =>
          simp only [htarget, hinsert, Except.ok.injEq, Prod.mk.injEq] at hrun
          exact ⟨t, target_eq_ok_iff.1 htarget, by rw [← hrun.2, Table.insert_rows hinsert]⟩

/-- What a deletion that is carried out has done. -/
theorem run_delete {conditions : List (String × Cell)} {touched : Nat} {contents : Container}
    (hrun : Statement.run c (.delete name conditions) = .ok (touched, contents)) :
    ∃ t, c.table? name = some t ∧
      contents = c.setTable { t with rows := t.rows.filter fun row => !t.agrees conditions row } := by
  simp only [Statement.run, bind, Except.bind] at hrun
  cases htarget : Statement.target c name with
  | error why => simp [htarget] at hrun
  | ok t =>
      simp only [htarget, Except.ok.injEq, Prod.mk.injEq] at hrun
      exact ⟨t, target_eq_ok_iff.1 htarget, hrun.2.symm⟩

end Container

/-- A statement either does what running it on the contents does, or fails without effect. -/
theorem Action.execute_ends (statement : Statement) (s : Session) :
    Ends (execute statement) s
      (fun touched s' => ∃ contents, statement.run s.contents = .ok (touched, contents) ∧
        s' = { s with contents }) (fun s' => s' = s) := by
  unfold Ends execute outcome
  cases hcheck : statement.check s.contents with
  | error why => rfl
  | ok _ =>
      cases hfits : statement.values.all Cell.fits with
      | false => rfl
      | true =>
          cases hwritable : s.writable with
          | false => rfl
          | true =>
              cases hrun : statement.run s.contents with
              | error why => rfl
              | ok result => exact ⟨result.2, rfl, rfl⟩

end TileAtlas
