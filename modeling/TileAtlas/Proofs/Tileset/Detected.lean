import TileAtlas.Proofs.Container.Catalogue
import TileAtlas.Tileset.Rows
import Mathlib.Data.List.Nodup

/-!
# Layouts that are found

The layout of a container is told from what its catalogue offers.  The catalogue ignores the case of
letters where columns are asked for and minds it where rows are; as long as no two tables have names
that differ only in that, what is offered can be read.
-/

namespace TileAtlas

variable {c : Container} {file : String} {shape : Shape} {layout : Layout}

/-- Whether no two tables have names that differ only in the case of letters. -/
def Container.Named (c : Container) : Prop :=
  (c.tables.map fun t => Text.lowerAscii t.name).Nodup

theorem Container.find?_sameName (hnamed : c.Named) {name : String} {t : Table}
    (h : c.table? name = some t) : c.tables.find? (sameName ·.name name) = some t := by
  have hname : t.name = name := name_of_table? h
  have hmem : t ∈ c.tables := List.mem_of_find?_eq_some h
  cases hfind : c.tables.find? (sameName ·.name name) with
  | none =>
      have hnot := List.find?_eq_none.1 hfind t hmem
      simp [sameName, hname] at hnot
  | some other =>
      have hsame : sameName other.name name = true := by simpa using List.find?_some hfind
      have hlower : Text.lowerAscii other.name = Text.lowerAscii t.name := by
        simpa [sameName, hname] using hsame
      rw [List.inj_on_of_nodup_map hnamed (List.mem_of_find?_eq_some hfind) hmem hlower]

theorem Container.setTable_self (hnamed : c.Named) {name : String} {t : Table}
    (h : c.table? name = some t) : c.setTable t = c := by
  have hmem : t ∈ c.tables := List.mem_of_find?_eq_some h
  have hmap : c.tables.map (fun old => if old.name = t.name then t else old) = c.tables := by
    refine (List.map_congr_left fun old hold => ?_).trans (List.map_id _)
    split
    next hname =>
      have hlower : Text.lowerAscii t.name = Text.lowerAscii old.name := by rw [hname]
      exact List.inj_on_of_nodup_map hnamed hmem hold hlower
    next => rfl
  exact congrArg (Container.mk · c.views) hmap

/-- What a catalogue offers as a table is the table of this name. -/
theorem offers_table (hnamed : c.Named) {name : String} {columns : List String}
    (h : offers c name .table columns = .ok true) :
    ∃ t, c.table? name = some t ∧ t.Offers columns := by
  unfold offers at h
  split at h
  next hkind =>
    cases htable : c.table? name with
    | none => simp [Container.objectKind?, htable] at hkind
    | some t =>
        simp only [Container.columnNames, Container.find?_sameName hnamed htable, bind, Except.bind,
          pure, Except.pure, Except.ok.injEq, List.all_eq_true] at h
        refine ⟨t, rfl, fun column hcolumn => ?_⟩
        rw [Table.position?_isSome_iff]
        simpa using h column hcolumn
  · cases h

/-! ### What is offered -/

/-- What a catalogue offers of a layout. -/
def Layout.Offered (layout : Layout) (c : Container) : Prop :=
  match layout with
  | .flat => offers c "tiles" .table (keyColumns ++ ["tile_data"]) = .ok true
  | .flatWithHash =>
    offers c "tiles_with_hash" .table (keyColumns ++ ["tile_data", "tile_hash"]) = .ok true
  | .normalized => offers c "map" .table (keyColumns ++ ["tile_id"]) = .ok true ∧
    offers c "images" .table ["tile_data", "tile_id"] = .ok true

/-- A question that is answered decides how to go on. -/
theorem ask_eq_ok {ε α : Type} {asked : Except ε Bool} {yes no : Except ε α} {a : α}
    (h : (asked >>= fun answer => if answer = true then yes else no) = .ok a) :
    asked = .ok true ∧ yes = .ok a ∨ asked = .ok false ∧ no = .ok a := by
  cases asked with
  | error why => cases h
  | ok answer =>
      cases answer with
      | true => exact .inl ⟨rfl, h⟩
      | false => exact .inr ⟨rfl, h⟩

theorem offered_of_shape? (h : shape? c = .ok (some shape)) : shape.layout.Offered c := by
  unfold shape? at h
  rcases ask_eq_ok h with ⟨hnormalized, h⟩ | ⟨-, h⟩
  · have hlayout : shape.layout = .normalized := by
      cases hview : offers c "tiles_with_hash" .view (keyColumns ++ ["tile_data", "tile_hash"]) with
      | error why =>
          rw [hview] at h
          cases h
      | ok view =>
          rw [hview] at h
          obtain rfl : ⟨.normalized, view⟩ = shape := Option.some.inj (Except.ok.inj h)
          rfl
    unfold offersNormalized at hnormalized
    rcases ask_eq_ok hnormalized with hoffered | ⟨-, hnot⟩
    · rw [hlayout]
      exact hoffered
    · cases hnot
  · rcases ask_eq_ok h with ⟨hoffered, h⟩ | ⟨-, h⟩
    · obtain rfl : ⟨.flatWithHash, false⟩ = shape := Option.some.inj (Except.ok.inj h)
      exact hoffered
    · rcases ask_eq_ok h with ⟨hoffered, h⟩ | ⟨-, h⟩
      · obtain rfl : ⟨.flat, false⟩ = shape := Option.some.inj (Except.ok.inj h)
        exact hoffered
      · cases Except.ok.inj h

theorem onFile_eq_ok {α : Type} {e : Except StatementError α} {a : α} (h : onFile file e = .ok a) :
    e = .ok a := by
  cases e with
  | error why => cases h
  | ok b => rw [Except.ok.inj h]

/-- Where a layout is found there are metadata as well. -/
theorem detect_eq_ok (h : detect file c = .ok shape) :
    offers c "metadata" .table ["name", "value"] = .ok true ∧ shape? c = .ok (some shape) := by
  unfold detect at h
  rcases ask_eq_ok h with ⟨hmetadata, h⟩ | ⟨-, h⟩
  · refine ⟨onFile_eq_ok hmetadata, ?_⟩
    cases hshape : shape? c with
    | error why =>
        rw [hshape] at h
        cases h
    | ok found =>
        cases found with
        | none =>
            rw [hshape] at h
            cases h
        | some shape' =>
            rw [hshape] at h
            rw [Except.ok.inj h]
  · cases h

theorem offered_of_detect (h : detect file c = .ok shape) : shape.layout.Offered c :=
  offered_of_shape? (detect_eq_ok h).2

/-! ### What can be read -/

theorem Layout.rowsIn_joined {m u : Table} (hm : c.table? "map" = some m)
    (hu : c.table? "images" = some u) (hmap : m.Offers (keyColumns ++ ["tile_id"]))
    (himages : u.Offers ["tile_data", "tile_id"]) (keyOrder imageOrder : Table → List Row) :
    Layout.normalized.rowsIn keyOrder imageOrder c = .ok (joinedRows (joinedIds c)
      ((keyOrder m).map fun row => (keyColumns ++ ["tile_id"]).map (m.cell row))
      ((imageOrder u).map fun row => [u.cell row "tile_id", u.cell row "tile_data"])) := by
  have himages : u.Offers ["tile_id", "tile_data"] := fun column hcolumn =>
    himages column (by simpa [or_comm] using hcolumn)
  simp only [Layout.rowsIn, Container.list_eq hm hmap, Container.list_eq hu himages, bind,
    Except.bind, pure, Except.pure]
  rfl

theorem Layout.exists_rowsIn (hnamed : c.Named) (h : layout.Offered c)
    (keyOrder imageOrder : Table → List Row) :
    ∃ rows, layout.rowsIn keyOrder imageOrder c = .ok rows := by
  cases layout with
  | flat =>
      obtain ⟨u, hu, hcolumns⟩ := offers_table hnamed h
      exact ⟨_, by simp only [rowsIn, Container.list_eq hu hcolumns, bind, Except.bind]; rfl⟩
  | flatWithHash =>
      obtain ⟨u, hu, hcolumns⟩ := offers_table hnamed h
      exact ⟨_, by simp only [rowsIn, Container.list_eq hu hcolumns, bind, Except.bind]; rfl⟩
  | normalized =>
      obtain ⟨m, hm, hmap⟩ := offers_table hnamed h.1
      obtain ⟨u, hu, himages⟩ := offers_table hnamed h.2
      exact ⟨_, rowsIn_joined hm hu hmap himages keyOrder imageOrder⟩

theorem Layout.exists_rows (hnamed : c.Named) (h : layout.Offered c) :
    ∃ rows, layout.rows c = .ok rows :=
  exists_rowsIn hnamed h Table.rows Table.rows

end TileAtlas
