import TileAtlas.Proofs.Container.Catalogue
import TileAtlas.Proofs.Container.Session

/-!
# Work that takes no notice of a change

A statement that names other tables does the same whatever the rows of a table are, and leaves that
table as it is.  Work that is made of such statements takes no notice of a change of the table: it
ends as it would have ended without the change, and the change is there afterwards.
-/

namespace TileAtlas

/-! ### Statements -/

namespace Container

variable {c : Container} {t u : Table}

@[simp] theorem view?_setTable (c : Container) (t : Table) (name : String) :
    (c.setTable t).view? name = c.view? name := rfl

@[simp] theorem views_setTable (c : Container) (t : Table) : (c.setTable t).views = c.views := rfl

theorem setTable_comm (h : t.name ≠ u.name) :
    (c.setTable t).setTable u = (c.setTable u).setTable t := by
  obtain ⟨tables, views⟩ := c
  simp only [setTable, List.map_map]
  refine congrArg (Container.mk · views) (List.map_congr_left fun old _ => ?_)
  simp only [Function.comp_apply]
  by_cases ht : old.name = t.name
  · simp [ht, h]
  · by_cases hu : old.name = u.name
    · simp [hu, h.symm]
    · simp [ht, hu]

theorem setTable_setTable (h : t.name = u.name) :
    (c.setTable t).setTable u = c.setTable u := by
  obtain ⟨tables, views⟩ := c
  simp only [setTable, List.map_map]
  refine congrArg (Container.mk · views) (List.map_congr_left fun old _ => ?_)
  simp only [Function.comp_apply]
  by_cases ht : old.name = t.name
  · simp [ht, h]
  · simp [ht, h ▸ ht]

theorem list_setTable {name : String} (h : name ≠ t.name) (columns : List String)
    (order : Table → List Row) :
    (c.setTable t).list name columns order = c.list name columns order := by
  simp only [list, table?_setTable_of_ne h]

theorem select_setTable {name : String} (h : name ≠ t.name) (columns : List String) :
    (c.setTable t).select name columns = c.select name columns :=
  list_setTable h columns Table.rows

end Container

namespace Statement

open Container

variable {c : Container} {t u : Table} {name : String}

/-- Whether a statement that adds or drops rows names other tables than the given one. -/
def Avoids (name : String) : Statement → Prop
  | insert table _ | delete table _ => table ≠ name
  | deleteUnlisted table _ other _ => table ≠ name ∧ other ≠ name
  | _ => False

theorem target_setTable (h : name ≠ t.name) : target (c.setTable t) name = target c name := by
  unfold target
  rw [table?_setTable_of_ne h, view?_setTable]

variable {statement : Statement}

theorem check_setTable (h : statement.Avoids t.name) :
    statement.check (c.setTable t) = statement.check c := by
  cases statement with
  | insert table given =>
      have hname : table ≠ t.name := h
      simp only [check, target_setTable hname]
  | delete table conditions =>
      have hname : table ≠ t.name := h
      simp only [check, target_setTable hname]
  | deleteUnlisted table column other otherColumn =>
      obtain ⟨htable, hother⟩ : table ≠ t.name ∧ other ≠ t.name := h
      simp only [check, target_setTable htable, target_setTable hother]
  | _ => exact h.elim

/-- Setting a table commutes with what a statement makes of another table. -/
theorem setTable_target {u' : Table} (h : name ≠ t.name) (hu : target c name = .ok u)
    (hname : u'.name = u.name) :
    (c.setTable t).setTable u' = (c.setTable u').setTable t := by
  have hu : u.name = name := name_of_table? (target_eq_ok_iff.1 hu)
  refine setTable_comm ?_
  rw [hname, hu]
  exact h.symm

theorem run_setTable (h : statement.Avoids t.name) :
    statement.run (c.setTable t) =
      (statement.run c).map fun result => (result.1, result.2.setTable t) := by
  cases statement with
  | insert table given =>
      have hname : table ≠ t.name := h
      simp only [run, target_setTable hname, bind, Except.bind]
      cases hu : target c table with
      | error why => rfl
      | ok u =>
          cases hinsert : u.insert (u.rowOf given) with
          | error why => simp [hinsert, Except.map]
          | ok u' =>
              have hu' : u'.name = u.name := by rw [Table.insert_rows hinsert]
              simp [hinsert, Except.map, setTable_target hname hu hu']
  | delete table conditions =>
      have hname : table ≠ t.name := h
      simp only [run, target_setTable hname, bind, Except.bind]
      cases hu : target c table with
      | error why => rfl
      | ok u =>
          have hname' (hit : Row → Bool) : (u.delete hit).name = u.name := rfl
          simp [Except.map, setTable_target hname hu (hname' _)]
  | deleteUnlisted table column other otherColumn =>
      obtain ⟨htable, hother⟩ : table ≠ t.name ∧ other ≠ t.name := h
      simp only [run, target_setTable htable, target_setTable hother, bind, Except.bind]
      cases hu : target c table with
      | error why => rfl
      | ok u =>
          cases target c other with
          | error why => rfl
          | ok v =>
              have hname (hit : Row → Bool) : (u.delete hit).name = u.name := rfl
              simp [Except.map, setTable_target htable hu (hname _)]
  | _ => exact h.elim

end Statement

/-! ### Work -/

namespace Action

variable {α β : Type} {x : Action α} {f : α → Action β} {change : Session → Session} {s : Session}

/-- Work that ends as it would have ended without a change of the session, and leaves the change
as it is. -/
def Ignores (change : Session → Session) (x : Action α) : Prop :=
  ∀ s, x (change s) =
    match x s with
    | .ok a s' => .ok a (change s')
    | .error failure s' => .error failure (change s')

theorem Ignores.bind (hx : Ignores change x) (hf : ∀ a, Ignores change (f a)) :
    Ignores change (x >>= f) := by
  intro s
  rw [bind_apply, bind_apply, hx s]
  cases x s with
  | ok a s' => exact hf a s'
  | error failure s' => rfl

theorem ignores_pure (a : α) : Ignores change (pure a : Action α) := fun _ => rfl

theorem ignores_throw (failure : Failure) : Ignores change (throw failure : Action α) :=
  fun _ => rfl

theorem ignores_modify {f : Session → Session} (h : ∀ s, f (change s) = change (f s)) :
    Ignores change (modify f : Action PUnit) := fun s => by
  rw [modify_apply, modify_apply, h]

theorem ignores_ofExcept (e : Except Failure α) : Ignores change (ofExcept e) := by
  cases e with
  | ok a => exact ignores_pure a
  | error failure => exact ignores_throw failure

theorem ignores_query {q : String → Container → Except Failure α}
    (h : ∀ s, q (change s).file (change s).contents = q s.file s.contents) :
    Ignores change (query q) := by
  intro s
  show ofExcept (q (change s).file (change s).contents) (change s) = _
  rw [h s]
  exact ignores_ofExcept _ s

theorem Ignores.ends {Q : α → Session → Prop} {E : Session → Prop} (hx : Ignores change x)
    (h : Ends x s Q E) :
    Ends x (change s) (fun a s' => ∃ s₀, Q a s₀ ∧ s' = change s₀)
      fun s' => ∃ s₀, E s₀ ∧ s' = change s₀ := by
  unfold Ends at h ⊢
  rw [hx s]
  cases hrun : x s with
  | ok a s' =>
      rw [hrun] at h
      exact ⟨s', h, rfl⟩
  | error failure s' =>
      rw [hrun] at h
      exact ⟨s', h, rfl⟩

/-- The session with a table in place of the one of its name. -/
def withTable (t : Table) (s : Session) : Session := { s with contents := s.contents.setTable t }

theorem ignores_execute {t : Table} {statement : Statement} (h : statement.Avoids t.name) :
    Ignores (withTable t) (execute statement) := by
  rintro ⟨file, writable, contents, inTransaction, images, account, notices⟩
  simp only [execute, outcome, withTable, Statement.check_setTable h, Statement.run_setTable h]
  cases statement.check contents with
  | error why => rfl
  | ok _ =>
      cases statement.values.all Cell.fits with
      | false => rfl
      | true =>
          cases writable with
          | false => rfl
          | true => cases statement.run contents <;> rfl

end Action

end TileAtlas
