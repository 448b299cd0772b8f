import TileAtlas.Proofs.Container.Catalogue
import TileAtlas.Proofs.Container.Ignore
import TileAtlas.Proofs.Container.Table
import TileAtlas.Proofs.Container.Visit
import TileAtlas.Proofs.Metadata.Lookup
import TileAtlas.Tileset.Store

/-!
# Metadata of other tools

The metadata table of a container that another tool has made has a column for names and one for
values, and it may have more.  A name may stand in several rows; the values under it come in the
order in which the table is visited, which is not the same where all names are read and where one
is.  To put a value under a name all rows of that name are dropped and one is added, which the table
may refuse: another column may have to be filled, or another row may have the key of the new one.
-/

namespace TileAtlas

namespace Table

variable {m : Table} {name value : String}

/-- Whether a row of the metadata stands under a name. -/
def under (m : Table) (name : String) (row : Row) : Bool := (m.cell row "name").eqv (.text name)

/-- Whether a row of the metadata has a value under a name that is not null. -/
def holds (m : Table) (name : String) (row : Row) : Bool :=
  m.under name row && !(m.cell row "value").isNull

/-- The values under a name that are not null, in the order in which they are met where the metadata
are read as a whole or by the name. -/
def valuesUnder (m : Table) (named : Bool) (name : String) : List String :=
  ((m.visited (Tileset.metadataAccess named)).filter (m.holds name)).map fun row =>
    (m.cell row "value").display

/-- The value under a name: the first one that is met. -/
def valueUnder (m : Table) (name : String) : Option String := (m.valuesUnder true name).head?

/-- The rows under all other names. -/
def others (m : Table) (name : String) : List Row := m.rows.filter fun row => !m.under name row

/-- The row that is added for a value under a name. -/
def rowUnder (m : Table) (name value : String) : Row :=
  m.rowOf [("name", .text name), ("value", .text value)]

/-- The rows after a value has been put under a name. -/
def withValue (m : Table) (name value : String) : List Row :=
  m.others name ++ [m.rowUnder name value]

/-- Whether a table takes a value under a name: no other column has to be filled, and no row of
another name has the key of the new row. -/
structure Takes (m : Table) (name value : String) : Prop where
  filled : m.missingColumn? (m.rowUnder name value) = none
  free : ∀ row ∈ m.others name, m.sameKey (m.rowUnder name value) row = false

theorem agrees_name (hcolumn : (m.position? "name").isSome)
    (hname : m.Keeps "name" (.text name)) :
    m.agrees [("name", .text name)] = m.under name := by
  funext row
  cases hfind : m.columns.find? (·.name = "name") with
  | none =>
      obtain ⟨c, hc, hcname⟩ := List.mem_map.1 (position?_isSome_iff.1 hcolumn)
      exact absurd hcname (by simpa using List.find?_eq_none.1 hfind c hc)
  | some c =>
      have hcname : c.name = "name" := by simpa using List.find?_some hfind
      have hkept := hname c (List.mem_of_find?_eq_some hfind) hcname
      simp [agrees, hfind, hkept, under]

theorem delete_name (hcolumn : (m.position? "name").isSome)
    (hname : m.Keeps "name" (.text name)) :
    m.delete (m.agrees [("name", .text name)]) = { m with rows := m.others name } := by
  rw [agrees_name hcolumn hname]
  rfl

theorem insert_of_takes (h : m.Takes name value) :
    insert { m with rows := m.others name } (m.rowUnder name value) =
      .ok { m with rows := m.withValue name value } :=
  insert_eq_ok h.filled h.free

theorem insert_of_not_takes (h : ¬ m.Takes name value) :
    ∃ why, insert { m with rows := m.others name } (m.rowUnder name value) = .error why := by
  cases hinsert : insert { m with rows := m.others name } (m.rowUnder name value) with
  | error why => exact ⟨why, rfl⟩
  | ok t =>
      refine absurd ?_ h
      unfold insert at hinsert
      split at hinsert
      · cases hinsert
      next hfilled =>
        split at hinsert
        · cases hinsert
        next hfree =>
          have hfree : ¬ (m.others name).any (m.sameKey (m.rowUnder name value)) = true := hfree
          exact ⟨hfilled, by simpa using hfree⟩

theorem cell_rowUnder_name (hcolumn : (m.position? "name").isSome)
    (hname : m.Keeps "name" (.text name)) : m.cell (m.rowUnder name value) "name" = .text name :=
  hname.cell_rowOf hcolumn rfl

theorem cell_rowUnder_value (hcolumn : (m.position? "value").isSome)
    (hvalue : m.Keeps "value" (.text value)) :
    m.cell (m.rowUnder name value) "value" = .text value :=
  hvalue.cell_rowOf hcolumn rfl

/-- The cell that a row has in a column where it is given none. -/
def ownCell (m : Table) (column : String) : Cell :=
  (m.columns.find? (·.name = column)).elim .null fun c => c.affinity.keep c.fallback

theorem under_rowUnder (hcolumn : (m.position? "name").isSome)
    (hname : m.Keeps "name" (.text name)) :
    m.under name (m.rowUnder name value) = true := by
  rw [under, cell_rowUnder_name hcolumn hname, Cell.eqv_text, decide_eq_true rfl]

/-- Only rows of the name are changed. -/
theorem others_withValue (hcolumn : (m.position? "name").isSome)
    (hname : m.Keeps "name" (.text name)) :
    others { m with rows := m.withValue name value } name = m.others name := by
  show (m.others name ++ [m.rowUnder name value]).filter (fun row => !m.under name row) = _
  have hlast : [m.rowUnder name value].filter (fun row => !m.under name row) = [] := by
    simp [under_rowUnder hcolumn hname]
  rw [List.filter_append, hlast, List.append_nil, others, List.filter_filter]
  simp only [Bool.and_self]

theorem others_others : others { m with rows := m.others name } name = m.others name := by
  show (m.others name).filter (fun row => !m.under name row) = _
  rw [others, List.filter_filter]
  simp only [Bool.and_self]

/-! ### All values under a name -/

theorem holds_rowUnder (hcolumns : m.Offers ["name", "value"]) (hname : m.Keeps "name" (.text name))
    (hvalue : m.Keeps "value" (.text value)) : m.holds name (m.rowUnder name value) = true := by
  rw [holds, under_rowUnder (hcolumns "name" (by simp)) hname,
    cell_rowUnder_value (hcolumns "value" (by simp)) hvalue]
  rfl

/-- The values under a name are told by the rows that hold them. -/
theorem valuesUnder_of_filter {rows : List Row} (h : m.rows.filter (m.holds name) = rows)
    (named : Bool) : m.valuesUnder named name =
      (visited { m with rows } (Tileset.metadataAccess named)).map fun row =>
        (m.cell row "value").display := by
  rw [valuesUnder, filter_visited, h]

theorem filter_holds_others_self (m : Table) (name : String) :
    (m.others name).filter (m.holds name) = [] := by
  refine List.filter_eq_nil_iff.2 fun row hrow => ?_
  have hnot : m.under name row = false := by simpa [others] using (List.mem_filter.1 hrow).2
  rw [holds, hnot, Bool.false_and]
  exact Bool.false_ne_true

/-- A value that its column keeps as it is is found under its name, and no other is. -/
theorem valuesUnder_withValue_self (hcolumns : m.Offers ["name", "value"])
    (hname : m.Keeps "name" (.text name)) (hvalue : m.Keeps "value" (.text value)) (named : Bool) :
    valuesUnder { m with rows := m.withValue name value } named name = [value] := by
  have hrows : (m.withValue name value).filter (m.holds name) = [m.rowUnder name value] := by
    rw [withValue, List.filter_append, filter_holds_others_self, List.nil_append,
      List.filter_cons_of_pos (holds_rowUnder hcolumns hname hvalue), List.filter_nil]
  have hvisited : visited { m with rows := [m.rowUnder name value] }
      (Tileset.metadataAccess named) = [m.rowUnder name value] :=
    List.perm_singleton.1 (visited_perm ..)
  refine (valuesUnder_of_filter (m := { m with rows := m.withValue name value }) hrows
    named).trans ?_
  refine (congrArg (List.map _) hvisited).trans ?_
  exact congrArg (fun cell : Cell => [cell.display])
    (cell_rowUnder_value (hcolumns "value" (by simp)) hvalue)

theorem valueUnder_withValue (hcolumns : m.Offers ["name", "value"])
    (hname : m.Keeps "name" (.text name)) (hvalue : m.Keeps "value" (.text value)) :
    valueUnder { m with rows := m.withValue name value } name = some value := by
  rw [valueUnder, valuesUnder_withValue_self hcolumns hname hvalue]
  rfl

end Table

open TileAtlas.Action Container

variable {c : Container} {m : Table} {s : Session} {name value : String}

theorem Container.affinity_keep (hm : c.table? "metadata" = some m) {column : String} {cell : Cell}
    (hcell : m.Keeps column cell) : (c.affinity "metadata" column).keep cell = cell := by
  rw [Container.affinity, hm, Option.elim_some, Table.affinity]
  cases hfind : m.columns.find? (·.name = column) with
  | none => exact Affinity.keep_any cell
  | some own =>
      exact hcell own (List.mem_of_find?_eq_some hfind) (by simpa using List.find?_some hfind)

theorem Tileset.metadataValue_eq (hm : c.table? "metadata" = some m)
    (hcolumns : m.Offers ["name", "value"]) (hname : m.Keeps "name" (.text name)) (file : String) :
    metadataValue? (.text name) file c = .ok (m.valueUnder name) := by
  simp only [metadataValue?, metadataRows, Container.visit, list_eq hm hcolumns,
    affinity_keep hm hname, onFile, bind, Except.bind, pure, Except.pure, List.map_map,
    List.find?_map, Option.map_map]
  rw [Table.valueUnder, Table.valuesUnder, List.head?_map, List.head?_filter]
  rfl

theorem check_deleteUnder (hm : c.table? "metadata" = some m)
    (hcolumns : m.Offers ["name", "value"]) (name : String) :
    (Statement.delete "metadata" [("name", .text name)]).check c = .ok () := by
  simp only [Statement.check, target_eq_ok_iff.2 hm, bind, Except.bind]
  exact requireColumns_of_offers fun column hcolumn =>
    hcolumns column (List.mem_cons.2 (.inl (List.mem_singleton.1 hcolumn)))

theorem check_insertUnder (hm : c.table? "metadata" = some m)
    (hcolumns : m.Offers ["name", "value"]) (name value : String) :
    (Statement.insert "metadata" [("name", .text name), ("value", .text value)]).check c =
      .ok () := by
  simp only [Statement.check, target_eq_ok_iff.2 hm, bind, Except.bind]
  exact requireColumns_of_offers hcolumns

section Put

variable (hm : s.contents.table? "metadata" = some m) (hcolumns : m.Offers ["name", "value"])
  (hname : m.Keeps "name" (.text name))

include hm hcolumns

theorem putMetadata_readOnly (hreadOnly : s.writable = false) (name : String) (value : Cell) :
    Tileset.putMetadata (.text name) value s =
      .error (.io (.statement s.file .readOnly)) s := by
  have hdelete : execute (.delete "metadata" [("name", .text name)]) s =
      .error (.io (.statement s.file .readOnly)) s := by
    simp only [execute, outcome, check_deleteUnder hm hcolumns, hreadOnly]
    rfl
  simp only [Tileset.putMetadata, bind_apply, hdelete]

include hname

theorem deleteUnder_run (hwritable : s.writable = true) :
    execute (.delete "metadata" [("name", .text name)]) s =
      .ok (m.rows.length - (m.others name).length)
        (withTable { m with rows := m.others name } s) := by
  have hrun : Statement.run s.contents (.delete "metadata" [("name", .text name)]) =
      .ok (m.rows.length - (m.others name).length,
        s.contents.setTable { m with rows := m.others name }) := by
    simp only [Statement.run, target_eq_ok_iff.2 hm, bind, Except.bind,
      Table.delete_name (hcolumns "name" (by simp)) hname]
  exact execute_of_run (check_deleteUnder hm hcolumns name) rfl hwritable hrun

/-- Putting a value under a name comes to adding one row to those of the other names. -/
theorem putMetadata_of_insert (hwritable : s.writable = true) {t : Table}
    (hinsert : Table.insert { m with rows := m.others name } (m.rowUnder name value) = .ok t) :
    Tileset.putMetadata (.text name) (.text value) s = .ok () (withTable t s) := by
  have hm' := table?_setTable hm (m.others name)
  have hset : (s.contents.setTable { m with rows := m.others name }).setTable t =
      s.contents.setTable t := by
    refine setTable_setTable ?_
    rw [Table.insert_rows hinsert]
  have hrun : Statement.run (s.contents.setTable { m with rows := m.others name })
      (.insert "metadata" [("name", .text name), ("value", .text value)]) =
        .ok (1, s.contents.setTable t) := by
    rw [← hset]
    simp only [Statement.run, target_eq_ok_iff.2 hm', bind, Except.bind]
    exact congrArg (Except.map _) hinsert
  have hadded : execute (.insert "metadata" [("name", .text name), ("value", .text value)])
      (withTable { m with rows := m.others name } s) = .ok 1 (withTable t s) :=
    execute_of_run (check_insertUnder hm' hcolumns name value) rfl hwritable hrun
  simp only [Tileset.putMetadata, bind_apply, deleteUnder_run hm hcolumns hname hwritable,
    Cell.isNull, Bool.not_false, if_true, hadded, pure_apply]

/-- If the row is refused, those of the name are gone all the same. -/
theorem putMetadata_of_refused (hwritable : s.writable = true) {why : StatementError}
    (hinsert : Table.insert { m with rows := m.others name } (m.rowUnder name value) = .error why) :
    Tileset.putMetadata (.text name) (.text value) s =
      .error (.io (.statement s.file why)) (withTable { m with rows := m.others name } s) := by
  have hm' := table?_setTable hm (m.others name)
  have hrun : Statement.run (s.contents.setTable { m with rows := m.others name })
      (.insert "metadata" [("name", .text name), ("value", .text value)]) = .error why := by
    simp only [Statement.run, target_eq_ok_iff.2 hm', bind, Except.bind]
    exact congrArg (Except.map _) hinsert
  have hrefused : execute (.insert "metadata" [("name", .text name), ("value", .text value)])
      (withTable { m with rows := m.others name } s) =
        .error (.io (.statement s.file why)) (withTable { m with rows := m.others name } s) :=
    execute_of_run_error (check_insertUnder hm' hcolumns name value) rfl hwritable hrun
  simp only [Tileset.putMetadata, bind_apply, deleteUnder_run hm hcolumns hname hwritable,
    Cell.isNull, Bool.not_false, if_true, hrefused]

end Put

end TileAtlas
