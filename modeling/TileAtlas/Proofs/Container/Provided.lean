import TileAtlas.Proofs.Container.Attempt
import TileAtlas.Proofs.Container.Catalogue

/-!
# Tables and columns that are there

A query fails for want of something if a table or a column that it names is not there.  Whether a
table and some columns are there is told by whether they can be selected, and no statement takes
them away.
-/

namespace TileAtlas

/-- Whether a statement or a query fails because a table or a column is not there. -/
def StatementError.OfAbsence : StatementError → Prop
  | noSuchTable _ | noSuchColumn _ | unknownColumn _ _ => True
  | _ => False

/-- Whether work fails because a table or a column is not there. -/
def Failure.OfAbsence : Failure → Prop
  | fault (.io (.statement _ why)) => why.OfAbsence
  | _ => False

/-- Whether something does not fail because a table or a column is not there. -/
def Supplied {α : Type} (e : Except Failure α) : Prop :=
  ∀ failure, e = .error failure → ¬ failure.OfAbsence

section Supplied

variable {α β : Type} {failure : Failure} {e : Except Failure α}

theorem supplied_ok (a : α) : Supplied (.ok a : Except Failure α) := nofun

theorem supplied_error (h : ¬ failure.OfAbsence) : Supplied (.error failure : Except Failure α) :=
  fun _ heq => Except.error.inj heq ▸ h

theorem Supplied.bind {f : α → Except Failure β} (he : Supplied e) (hf : ∀ a, Supplied (f a)) :
    Supplied (e >>= f) := by
  cases e with
  | ok a => exact hf a
  | error failure => exact supplied_error (he failure rfl)

theorem Supplied.map (he : Supplied e) (f : α → β) : Supplied (e.map f) := by
  cases e with
  | ok a => exact supplied_ok (f a)
  | error failure => exact supplied_error (he failure rfl)

theorem supplied_mapM {f : α → Except Failure β} (hf : ∀ a, Supplied (f a)) (l : List α) :
    Supplied (l.mapM f) := by
  induction l with
  | nil => exact supplied_ok []
  | cons a rest ih =>
      rw [List.mapM_cons]
      exact (hf a).bind fun b => ih.bind fun more => supplied_ok (b :: more)

theorem supplied_reading {read : α → Except Failure (Option β)} (hread : ∀ a, Supplied (read a))
    (l : List α) : Supplied (Scan.reading read l).all := by
  induction l with
  | nil => exact supplied_ok []
  | cons a rest ih =>
      unfold Scan.reading
      cases ha : read a with
      | error failure => exact supplied_error (hread a failure ha)
      | ok found =>
          cases found with
          | none => exact ih
          | some b =>
              have hcons : (Scan.cons b (Scan.reading read rest)).all =
                  (Scan.reading read rest).all.map (b :: ·) := by
                unfold Scan.all Scan.cons
                cases (Scan.reading read rest).failure <;> rfl
              dsimp only
              rw [hcons]
              exact ih.map _

end Supplied

/-! ### Tables of a container -/

namespace Table

variable {t t' : Table} {columns : List String} {row : Row}

theorem offers_of_positions {positions : List Nat} (h : t.positions columns = .ok positions) :
    t.Offers columns := by
  induction columns generalizing positions with
  | nil => exact nofun
  | cons column rest ih =>
      unfold Table.positions at h
      cases hposition : t.position? column with
      | none =>
          rw [hposition] at h
          cases h
      | some i =>
          rw [hposition] at h
          cases hrest : t.positions rest with
          | error why =>
              rw [hrest] at h
              cases h
          | ok more => exact List.forall_mem_cons.2 ⟨by rw [hposition]; rfl, ih hrest⟩

theorem replace_rows (h : t.replace row = .ok t') : ∃ rows, t' = { t with rows } := by
  unfold replace at h
  split at h
  · cases h
  · exact ⟨_, (Except.ok.inj h).symm⟩

theorem update_rows {column : String} {value : Cell} {condition : Row → Bool}
    (h : t.update column value condition = .ok t') : ∃ rows, t' = { t with rows } := by
  unfold update at h
  cases hrows : t.updateFrom column value condition [] t.rows with
  | error why =>
      rw [hrows] at h
      cases h
  | ok rows =>
      rw [hrows] at h
      exact ⟨rows, (Except.ok.inj h).symm⟩

end Table

namespace Container

variable {c : Container} {t : Table} {name own : String} {columns : List String}

/-- Whether a container has a table of a name with at least some columns. -/
def Has (c : Container) (name : String) (columns : List String) : Prop :=
  ∃ t, c.table? name = some t ∧ t.Offers columns

theorem has_iff_exists_list (order : Table → List Row) :
    c.Has name columns ↔ ∃ rows, c.list name columns order = .ok rows := by
  constructor
  · rintro ⟨t, ht, hcolumns⟩
    exact ⟨_, list_eq ht hcolumns order⟩
  · rintro ⟨rows, hrows⟩
    unfold list at hrows
    cases ht : c.table? name with
    | none =>
        rw [ht] at hrows
        cases hrows
    | some t =>
        simp only [ht] at hrows
        cases hpositions : t.positions columns with
        | error why =>
            rw [hpositions] at hrows
            cases hrows
        | ok positions => exact ⟨t, ht, Table.offers_of_positions hpositions⟩

theorem has_iff_exists_select : c.Has name columns ↔ ∃ rows, c.select name columns = .ok rows :=
  has_iff_exists_list Table.rows

theorem Has.mono {fewer : List String} (h : c.Has name columns) (hfewer : fewer ⊆ columns) :
    c.Has name fewer := by
  obtain ⟨t, ht, hcolumns⟩ := h
  exact ⟨t, ht, fun column hcolumn => hcolumns column (hfewer hcolumn)⟩

theorem Has.setRows (h : c.Has name columns) (ht : c.table? own = some t) (rows : List Row) :
    (c.setTable { t with rows }).Has name columns := by
  obtain ⟨u, hu, hcolumns⟩ := h
  by_cases hname : name = own
  · subst hname
    obtain rfl := Option.some.inj (ht.symm.trans hu)
    exact ⟨_, table?_setTable ht rows, hcolumns⟩
  · have hother : (c.setTable { t with rows }).table? name = c.table? name :=
      table?_setTable_of_ne (by simpa [name_of_table? ht] using hname)
    exact ⟨u, hother.trans hu, hcolumns⟩

/-- Whether a container has some tables, each with some columns. -/
def HasAll (c : Container) (needs : List (String × List String)) : Prop :=
  ∀ need ∈ needs, c.Has need.1 need.2

end Container

/-! ### Statements -/

theorem except_bind_eq_ok {ε α β : Type} {e : Except ε α} {f : α → Except ε β} {b : β} :
    (e >>= f) = .ok b ↔ ∃ a, e = .ok a ∧ f a = .ok b := by
  cases e with
  | ok a => exact ⟨fun h => ⟨a, rfl, h⟩, fun ⟨_, he, h⟩ => by cases he; exact h⟩
  | error failure => exact ⟨nofun, fun ⟨_, he, _⟩ => nomatch he⟩

namespace Statement

open Container

variable {c c' : Container} {t : Table} {name table : String} {columns : List String}
  {statement : Statement}

theorem table?_of_looseTarget (h : looseTarget c table = .ok t) : c.table? t.name = some t := by
  unfold looseTarget at h
  split at h
  next found hfind =>
    obtain rfl := Except.ok.inj h
    obtain ⟨hsame, before, after, htables, hbefore⟩ := List.find?_eq_some_iff_append.1 hfind
    refine List.find?_eq_some_iff_append.2 ⟨by simp, before, after, htables, fun old hold => ?_⟩
    -- a table of this very name would have been found first
    have hnot := hbefore old hold
    simp only [Bool.not_eq_true', decide_eq_false_iff_not] at hnot ⊢
    intro heq
    rw [heq, hsame] at hnot
    cases hnot
  · split at h <;> cases h

/-- A statement adds a table or a view, or changes the rows of a table. -/
theorem run_changes {touched : Nat} (hrun : statement.run c = .ok (touched, c')) :
    (∃ tables views, c' = ⟨c.tables ++ tables, c.views ++ views⟩) ∨
    ∃ own t rows, c.table? own = some t ∧ c' = c.setTable { t with rows } := by
  cases statement with
  | createTable table =>
      obtain rfl := (Prod.mk.inj (Except.ok.inj hrun)).2
      exact .inl ⟨[table], [], by rw [List.append_nil]⟩
  | createView view =>
      obtain rfl := (Prod.mk.inj (Except.ok.inj hrun)).2
      exact .inl ⟨[], [view], by rw [List.append_nil]⟩
  | insert table given =>
      obtain ⟨t, ht, rfl⟩ := run_insert hrun
      exact .inr ⟨table, t, _, ht, rfl⟩
  | replace table given =>
      obtain ⟨t, ht, hrun⟩ := except_bind_eq_ok.1 hrun
      obtain ⟨t', ht', hrun⟩ := except_bind_eq_ok.1 hrun
      obtain ⟨rows, rfl⟩ := Table.replace_rows ht'
      exact .inr ⟨table, t, rows, target_eq_ok_iff.1 ht, (Prod.mk.inj (Except.ok.inj hrun)).2.symm⟩
  | insertRow table cells =>
      obtain ⟨t, ht, hrun⟩ := except_bind_eq_ok.1 hrun
      obtain ⟨t', ht', hrun⟩ := except_bind_eq_ok.1 hrun
      obtain rfl := Table.insert_rows ht'
      exact .inr ⟨t.name, t, _, table?_of_looseTarget ht,
        (Prod.mk.inj (Except.ok.inj hrun)).2.symm⟩
  | delete table conditions =>
      obtain ⟨t, ht, rfl⟩ := run_delete hrun
      exact .inr ⟨table, t, _, ht, rfl⟩
  | deleteUnlisted table column other otherColumn =>
      obtain ⟨t, ht, hrun⟩ := except_bind_eq_ok.1 hrun
      obtain ⟨u, -, hrun⟩ := except_bind_eq_ok.1 hrun
      exact .inr ⟨table, t, _, target_eq_ok_iff.1 ht, (Prod.mk.inj (Except.ok.inj hrun)).2.symm⟩
  | update table column value conditions =>
      obtain ⟨t, ht, hrun⟩ := except_bind_eq_ok.1 hrun
      obtain ⟨t', ht', hrun⟩ := except_bind_eq_ok.1 hrun
      obtain ⟨rows, rfl⟩ := Table.update_rows ht'
      exact .inr ⟨table, t, rows, target_eq_ok_iff.1 ht, (Prod.mk.inj (Except.ok.inj hrun)).2.symm⟩

/-- No statement takes a table or a column away. -/
theorem run_has {touched : Nat} (hrun : statement.run c = .ok (touched, c'))
    (h : c.Has name columns) : c'.Has name columns := by
  rcases run_changes hrun with ⟨tables, views, rfl⟩ | ⟨own, t, rows, ht, rfl⟩
  · obtain ⟨u, hu, hcolumns⟩ := h
    refine ⟨u, ?_, hcolumns⟩
    rw [table?, List.find?_append, show c.tables.find? (·.name = name) = some u from hu]
    rfl
  · exact h.setRows ht rows

end Statement

theorem Action.execute_hasAll {needs : List (String × List String)} {s : Session}
    (statement : Statement) (h : s.contents.HasAll needs) :
    Leaves (execute statement) s fun s' => s'.contents.HasAll needs := by
  refine (execute_ends statement s).mono ?_ ?_
  · rintro touched _ ⟨contents, hrun, rfl⟩ need hneed
    exact Statement.run_has hrun (h need hneed)
  · rintro _ rfl
    exact h

end TileAtlas
