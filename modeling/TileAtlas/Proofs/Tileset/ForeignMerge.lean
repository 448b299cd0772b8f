import TileAtlas.Proofs.Metadata.Reorder
import TileAtlas.Proofs.Tileset.Detected
import TileAtlas.Proofs.Tileset.ForeignMetadata
import TileAtlas.Proofs.Tileset.Merge

/-!
# Merging into metadata of other tools

To merge changes into a container is to merge them into the map that is read from it, with each
value that is taken put into the table as well.  The table may hold a name several times and values
that are null, so it is not the map; but whatever it holds, after each change it is read as the map
that the merge goes by.  Only a row that the table refuses ends the work before the map does.
-/

namespace TileAtlas

/-! ### Changes that set a value -/

/-- Whether a change sets a value under a name. -/
def MetadataChange.Sets (change : MetadataChange) (name value : String) : Prop :=
  change = .add (.text name) (.text value) ∨ change = .edit (.text name) (.text value)

namespace MetadataChange.Sets

variable {change : MetadataChange} {name value : String}

theorem name_eq (h : change.Sets name value) : change.name = .text name := by
  obtain rfl | rfl := h <;> rfl

end MetadataChange.Sets

/-- A change does the same to maps that are the same. -/
theorem Metadata.SameAs.applyTo {m m' : Metadata} (hsame : m.SameAs m') (h : m.IsTextMap)
    (h' : m'.IsTextMap) {change : MetadataChange} (hchange : change.IsText) :
    (change.applyTo m).SameAs (change.applyTo m') := by
  refine ((h.applyTo hchange).sameAs_iff (h'.applyTo hchange)).2 fun name => ?_
  rw [MetadataChange.get?_applyTo hchange, MetadataChange.get?_applyTo hchange,
    (h.sameAs_iff h').1 hsame name]

/-! ### Rows under text names -/

namespace Table

variable {m : Table} {name value : String} {change : MetadataChange}
  {changes rest : List MetadataChange} {rows : List Row}

/-- The names and values that are read from a table: the values that are not null, as texts. -/
def entries (m : Table) : List (Cell × Cell) :=
  ((m.visited (Tileset.metadataAccess false)).filter fun row => !(m.cell row "value").isNull).map fun row =>
    (m.cell row "name", .text (m.cell row "value").display)

/-- The map that is read from a table; of a repeated name it has the last value. -/
def metadata (m : Table) : Metadata := .ofEntries m.entries

/-- Whether the rows of a table have text names. -/
def TextNames (m : Table) : Prop := ∀ row ∈ m.rows, ∃ name, m.cell row "name" = .text name

instance : Decidable m.TextNames :=
  decidable_of_iff (∀ row ∈ m.rows, m.cell row "name" = .text (m.cell row "name").display)
    ⟨fun h row hrow => ⟨_, h row hrow⟩, fun h row hrow => by
      obtain ⟨name, hname⟩ := h row hrow
      rw [hname]
      rfl⟩

/-- The rows whose names no change has. -/
def beside (m : Table) (changes : List MetadataChange) : List Row :=
  m.rows.filter fun row => changes.all fun change => !decide (m.cell row "name" = change.name)

theorem TextNames.entries (h : m.TextNames) :
    ∀ entry ∈ m.entries, ∃ name value : String, entry = (.text name, .text value) := by
  intro entry hentry
  obtain ⟨row, hrow, rfl⟩ := List.mem_map.1 hentry
  obtain ⟨name, hname⟩ := h row ((m.visited_perm _).mem_iff.1 (List.mem_of_mem_filter hrow))
  exact ⟨name, _, by rw [hname]⟩

theorem TextNames.others (h : m.TextNames) (name : String) :
    TextNames { m with rows := m.others name } :=
  fun row hrow => h row (List.mem_of_mem_filter hrow)

theorem TextNames.withValue (h : m.TextNames) (hcolumn : (m.position? "name").isSome)
    (hname : m.Keeps "name" (.text name)) :
    TextNames { m with rows := m.withValue name value } := by
  intro row hrow
  rcases List.mem_append.1 hrow with hrow | hrow
  · exact h.others name row hrow
  · obtain rfl := List.mem_singleton.1 hrow
    exact ⟨name, cell_rowUnder_name hcolumn hname⟩

/-- Why a container does not carry out a change: it is open for reading only; or the row for the
value leaves a column empty that has to be filled and has no cell of its own; or the row of another
name has the key of the new row, which consists of the value and of the cells that other columns
have of their own. -/
inductive Refuses (m : Table) (writable : Bool) (change : MetadataChange) : StatementError → Prop
  | readOnly (hreadOnly : writable = false) : Refuses m writable change .readOnly
  | missing {column : Column} (hset : change.action ≠ .remove) (hcolumn : column ∈ m.columns)
      (hrequired : column.required = true)
      (hother : column.name ≠ "name" ∧ column.name ≠ "value")
      (hempty : (m.ownCell column.name).isNull = true) :
      Refuses m writable change (.missing m.name column.name)
  | duplicate {row : Row} (hset : change.action ≠ .remove) (hrow : row ∈ m.rows)
      (hother : m.cell row "name" ≠ change.name) (hkeyed : m.key ≠ [])
      (hkey : ∀ column ∈ m.key, if column = "value" then m.cell row column = change.value
        else column ≠ "name" ∧ (m.ownCell column).eqv (m.cell row column) = true) :
      Refuses m writable change (.duplicate m.name m.key)

section RowUnder

variable (hcolumns : m.Offers ["name", "value"]) (hname : m.Keeps "name" (.text name))
  (hvalue : m.Keeps "value" (.text value))

include hcolumns hname hvalue

end RowUnder

end Table

/-! ### Carrying out a change -/

open TileAtlas.Action Container

namespace Tileset

variable {s : Session} {m : Table} {change : MetadataChange} {changes rest : List MetadataChange}
  {policy : MergePolicy} {current : Metadata} {rows : List Row}

theorem metadata_of_table {c : Container} (hm : c.table? "metadata" = some m)
    (hcolumns : m.Offers ["name", "value"]) (file : String) :
    metadata file c = .ok m.metadata := by
  simp only [metadata, metadataRows, Container.visit, list_eq hm hcolumns, onFile, bind,
    Except.bind, pure, Except.pure, List.map_map, List.filter_map]
  rfl

/-- Whether an open container has a table of metadata whose rows have text names. -/
structure HasMetadata (s : Session) (m : Table) : Prop where
  table : s.contents.table? "metadata" = some m
  alone : s.contents.setTable m = s.contents
  columns : m.Offers ["name", "value"]
  texts : m.TextNames

theorem HasMetadata.of_detect {shape : Shape} (hnamed : s.contents.Named)
    (hdetected : detect s.file s.contents = .ok shape) (hm : s.contents.table? "metadata" = some m)
    (htexts : m.TextNames) : HasMetadata s m := by
  obtain ⟨m', hm', hcolumns⟩ := offers_table hnamed (detect_eq_ok hdetected).1
  obtain rfl := Option.some.inj (hm'.symm.trans hm)
  exact ⟨hm, setTable_self hnamed hm, hcolumns, htexts⟩

theorem HasMetadata.metadata_eq (h : HasMetadata s m) :
    metadata s.file s.contents = .ok m.metadata :=
  metadata_of_table h.table h.columns s.file

/-- What carrying out a change does to the rows. -/
structure CarriesOut (m : Table) (change : MetadataChange) (rows : List Row) : Prop where
  texts : Table.TextNames { m with rows }
  reads : (Table.metadata { m with rows }).SameAs (change.applyTo m.metadata)
  others : ∀ name, change.name = .text name → Table.others { m with rows } name = m.others name

/-- The ways in which putting the value of a change ends.  Where the row is refused, those under the
name are gone all the same. -/
inductive Puts (m : Table) (change : MetadataChange) (s : Session) :
    EStateM.Result Failure Session Unit → Prop
  | carriedOut {rows : List Row} (hrows : CarriesOut m change rows) :
      Puts m change s (.ok () (withTable { m with rows } s))
  | readOnly (hreadOnly : s.writable = false) :
      Puts m change s (.error (.io (.statement s.file .readOnly)) s)
  | refused {name : String} {why : StatementError} (hown : change.name = .text name)
      (hrefuses : m.Refuses s.writable change why) :
      Puts m change s (.error (.io (.statement s.file why))
        (withTable { m with rows := m.others name } s))

/-- Whether only rows of names that some changes have are not what they were. -/
def Within (changes : List MetadataChange) (m : Table) (s s' : Session) : Prop :=
  ∃ rows, s'.contents = s.contents.setTable { m with rows } ∧ Table.TextNames { m with rows } ∧
    Table.beside { m with rows } changes = m.beside changes

/-- Whether merging changes stops at one that the container refuses: those before it have been
merged, their map takes it, and the table that they have left refuses it. -/
def Stops (policy : MergePolicy) (current : Metadata) (s : Session) (changes : List MetadataChange)
    (why : StatementError) : Prop :=
  ∃ before change after n s' m reached, changes = before ++ change :: after ∧
    mergeFrom policy current before s = .ok n s' ∧
    (current.merge policy before).2 = .ok reached ∧
    HasMetadata s' m ∧ m.metadata.SameAs reached ∧
    change.resolve policy (reached.get? change.name) = .ok true ∧
    m.Refuses s'.writable change why

/-- The ways in which merging changes into a container ends, told by what merging them into a map
comes to. -/
inductive MergesLike (policy : MergePolicy) (current : Metadata) (s : Session)
    (changes : List MetadataChange) : EStateM.Result Failure Session Nat → Prop
  | merged {m : Table} {merged : Metadata} {s' : Session}
      (hmerged : (current.merge policy changes).2 = .ok merged)
      (hmetadata : HasMetadata s' m) (hreads : m.metadata.SameAs merged) :
      MergesLike policy current s changes (.ok (current.written changes) s')
  | conflict {name existing incoming : Cell} {s' : Session}
      (hconflict : (current.merge policy changes).2 =
        .error (.metadataConflict name existing incoming)) :
      MergesLike policy current s changes
        (.error (.fault (.metadataConflict name existing incoming)) s')
  | refused {why : StatementError} {s' : Session} (hstops : Stops policy current s changes why) :
      MergesLike policy current s changes (.error (.io (.statement s.file why)) s')

theorem MergesLike.cons {taken : Bool} {s' : Session} (hchange : change.IsText)
    (hresolve : change.resolve policy (current.get? change.name) = .ok taken)
    (h : MergesLike policy (change.step taken current) s' rest
      (mergeFrom policy (change.step taken current) rest s'))
    (hrun : ∀ rest, mergeFrom policy current (change :: rest) s =
      counted taken (mergeFrom policy (change.step taken current) rest s'))
    (hfile : s'.file = s.file) :
    MergesLike policy current s (change :: rest) (mergeFrom policy current (change :: rest) s) := by
  rw [hrun]
  generalize mergeFrom policy (change.step taken current) rest s' = result at h ⊢
  cases h with
  | merged hmerged hmetadata hreads =>
      rw [counted, ← Metadata.written_cons hchange hresolve]
      exact .merged ((Metadata.merge_cons_ok hresolve).trans hmerged) hmetadata hreads
  | conflict hconflict => exact .conflict ((Metadata.merge_cons_ok hresolve).trans hconflict)
  | refused hstops =>
      obtain ⟨before, other, after, n, s'', m, reached, rfl, hbefore, hreached, hrest⟩ := hstops
      rw [hfile]
      refine .refused ⟨change :: before, other, after, n + taken.toNat, s'', m, reached, rfl, ?_,
        (Metadata.merge_cons_ok hresolve).trans hreached, hrest⟩
      rw [hrun, hbefore]
      rfl

end Tileset

end TileAtlas
