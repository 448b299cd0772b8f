import TileAtlas.Patch.File
import TileAtlas.Proofs.Container.Session
import TileAtlas.Proofs.Container.Table
import TileAtlas.Proofs.Metadata.Sync
import TileAtlas.Proofs.Tile.Order

/-!
# Writing a patch file

A patch file is determined by the entries of its metadata table and by its records.  An entry takes
the place of an earlier one of the same name, so a change to a name that the patch uses for itself
displaces what the patch says there.
-/

namespace TileAtlas.PatchFile

/-- An entry of the metadata table: what the patch says of itself has no change. -/
structure Entry where
  name : String
  value : Option String
  change : Option String

def Entry.row (entry : Entry) : Row :=
  [.text entry.name, .ofText? entry.value, .ofText? entry.change]

def recordRow (record : PatchRecord) : Row :=
  record.key.cells ++ [.text (Keyword.word record.action), .text (Keyword.word record.encoding),
    .ofPayload record.tileData, .ofPayload record.patchData, record.resultHash]

def metadataTableOf (entries : List Entry) : Table :=
  { metadataTable with rows := entries.map Entry.row }

def patchesTableOf (records : List PatchRecord) : Table :=
  { patchesTable with rows := records.map recordRow }

/-- The container that keeps some entries and records. -/
def container (entries : List Entry) (records : List PatchRecord) : Container :=
  ⟨[metadataTableOf entries, patchesTableOf records], [Layout.tilesView "patches"]⟩

/-- Whether a record can be stored and read back. -/
structure Storable (record : PatchRecord) : Prop where
  sound : PatchRecord.problem? record.key record.action record.encoding record.patchData = none
  hash : ∃ hash, record.resultHash = .ofText? hash
  fits : record.key.cells.all Cell.fits = true

/-! ### Entries -/

/-- With an entry in place of the one of the same name. -/
def putEntry (entries : List Entry) (entry : Entry) : List Entry :=
  (entries.filter fun old => !decide (entry.name = old.name)) ++ [entry]

theorem missingColumn?_row (entries : List Entry) (entry : Entry) :
    (metadataTableOf entries).missingColumn? entry.row = none := by
  simp [Table.missingColumn?, metadataTableOf, metadataTable, Entry.row, Table.cell,
    Table.position?, Column.word, Cell.isNull, List.findIdx?_cons]

theorem sameKey_row (entries : List Entry) (a b : Entry) :
    (metadataTableOf entries).sameKey a.row b.row = decide (a.name = b.name) := by
  simp [Table.sameKey, metadataTableOf, metadataTable, Entry.row, Table.cell, Table.position?,
    Column.word, List.findIdx?_cons]

theorem rowOf_metadataTable (entries : List Entry) (entry : Entry) :
    (metadataTableOf entries).rowOf [("name", .text entry.name), ("value", .ofText? entry.value),
      ("change", .ofText? entry.change)] = entry.row := by
  obtain ⟨name, value, change⟩ := entry
  cases value <;> cases change <;> rfl

theorem replace_metadataTable (entries : List Entry) (entry : Entry) :
    (metadataTableOf entries).replace entry.row = .ok (metadataTableOf (putEntry entries entry)) :=
  Table.replace_map (missingColumn?_row entries entry) rfl fun old _ =>
    sameKey_row entries entry old

/-- Entries of different names that are put in turn displace earlier ones of these names. -/
theorem foldl_putEntry {entries new : List Entry}
    (hnew : new.Pairwise fun a b => a.name ≠ b.name) :
    new.foldl putEntry entries =
      (entries.filter fun old => decide (∀ entry ∈ new, entry.name ≠ old.name)) ++ new := by
  induction new generalizing entries with
  | nil => simp
  | cons entry rest ih =>
      obtain ⟨hfirst, hrest⟩ := List.pairwise_cons.1 hnew
      have hkept : [entry].filter (fun old => decide (∀ e ∈ rest, e.name ≠ old.name)) = [entry] :=
        List.filter_eq_self.2 fun old hold => by
          obtain rfl := List.mem_singleton.1 hold
          exact decide_eq_true fun e he => (hfirst e he).symm
      rw [List.foldl_cons, ih hrest, putEntry, List.filter_append, List.filter_filter, hkept,
        List.append_assoc, List.singleton_append]
      refine congrArg (· ++ entry :: rest) (List.filter_congr fun old _ => ?_)
      rw [Bool.eq_iff_iff]
      simp [and_comm]

/-! ### Records -/

theorem missingColumn?_recordRow (records : List PatchRecord) (record : PatchRecord) :
    (patchesTableOf records).missingColumn? (recordRow record) = none := by
  simp [Table.missingColumn?, keyColumns, TileKey.cells, patchesTableOf, patchesTable,
    Layout.keyedTable, recordRow, Table.cell, Table.position?, Column.number, Column.word,
    Column.payload, Cell.isNull, List.findIdx?_cons]

theorem sameKey_recordRow (records : List PatchRecord) (a b : PatchRecord) :
    (patchesTableOf records).sameKey (recordRow a) (recordRow b) = decide (a.key = b.key) := by
  rw [Bool.eq_iff_iff, decide_eq_true_iff, TileKey.eq_iff]
  simp [Table.sameKey, keyColumns, TileKey.cells, patchesTableOf, patchesTable, Layout.keyedTable,
    recordRow, Table.cell, Table.position?, Column.number, List.findIdx?_cons, Int.natCast_inj]

theorem rowOf_patchesTable (records : List PatchRecord) {record : PatchRecord}
    (hrecord : Storable record) :
    (patchesTableOf records).rowOf (recordCells record) = recordRow record := by
  obtain ⟨key, action, encoding, tileData, patchData, resultHash⟩ := record
  obtain ⟨hash, hhash⟩ := hrecord.hash
  obtain rfl : resultHash = .ofText? hash := hhash
  cases tileData <;> cases patchData <;> cases hash <;> rfl

theorem insert_patchesTable {records : List PatchRecord} {record : PatchRecord}
    (hnew : ∀ old ∈ records, old.key ≠ record.key) :
    (patchesTableOf records).insert (recordRow record) =
      .ok (patchesTableOf (records ++ [record])) := by
  refine Table.insert_map (missingColumn?_recordRow records record) rfl fun old hold => ?_
  rw [sameKey_recordRow]
  exact decide_eq_false (hnew old hold).symm

theorem insert_patchesTable_duplicate {records : List PatchRecord} {record : PatchRecord}
    (hold : ∃ old ∈ records, old.key = record.key) :
    (patchesTableOf records).insert (recordRow record) =
      .error (.duplicate "patches" keyColumns) := by
  have hany : (patchesTableOf records).rows.any
      ((patchesTableOf records).sameKey (recordRow record)) = true := by
    obtain ⟨old, hmem, hkey⟩ := hold
    refine List.any_eq_true.2 ⟨recordRow old, List.mem_map_of_mem hmem, ?_⟩
    rw [sameKey_recordRow]
    exact decide_eq_true hkey.symm
  simp only [Table.insert, missingColumn?_recordRow, hany, if_true]
  rfl

theorem fits_ofPayload (data : Option Bytes) : (Cell.ofPayload data).fits = true := by
  cases data <;> rfl

theorem fits_ofText? (text : Option String) : (Cell.ofText? text).fits = true := by
  cases text <;> rfl

theorem fits_recordCells {record : PatchRecord} (hrecord : Storable record) :
    ((recordCells record).map (·.2)).all Cell.fits = true := by
  obtain ⟨hash, hhash⟩ := hrecord.hash
  have hcells : (recordCells record).map (·.2) = record.key.cells ++
      [.text (Keyword.word record.action), .text (Keyword.word record.encoding),
        .ofPayload record.tileData, .ofPayload record.patchData, record.resultHash] := rfl
  rw [hcells, List.all_append, hrecord.fits, hhash]
  simp only [List.all_cons, fits_ofPayload, fits_ofText?]
  rfl

/-! ### Writing -/

/-- An open patch file with some entries and records. -/
structure Holds (file : String) (entries : List Entry) (records : List PatchRecord) (s : Session) :
    Prop where
  file_eq : s.file = file
  writable : s.writable = true
  contents : s.contents = container entries records

variable {file : String} {entries : List Entry} {records : List PatchRecord} {s : Session}

theorem create_spec (hempty : s.contents = .empty) (hwritable : s.writable = true) :
    Yields create s fun _ s' => Holds s.file [] [] s' := by
  have hisEmpty : s.contents.isEmpty = true := by rw [hempty]; rfl
  have hexecute : Action.executeAll statements s =
      .ok () { s with contents := container [] [] } := by
    simp [Action.executeAll, statements, bind_apply, Action.execute, Action.outcome,
      Statement.check, Statement.values, Statement.run, hempty, hwritable]
    rfl
  refine ⟨(), { s with contents := container [] [] }, ?_, rfl, hwritable, rfl⟩
  simp only [create, bind_apply, get_apply, hisEmpty, if_true, hexecute]

theorem writeEntry_spec (hs : Holds file entries records s) (entry : Entry) :
    Yields (writeEntry (.text entry.name) (.ofText? entry.value) (.ofText? entry.change)) s
      fun _ s' => Holds file (putEntry entries entry) records s' := by
  let statement : Statement := .replace "metadata" [("name", .text entry.name),
    ("value", .ofText? entry.value), ("change", .ofText? entry.change)]
  have htarget : Statement.target (container entries records) "metadata" =
      .ok (metadataTableOf entries) := rfl
  have hset : (container entries records).setTable (metadataTableOf (putEntry entries entry)) =
      container (putEntry entries entry) records := rfl
  have hcheck : statement.check s.contents = .ok () := by
    rw [hs.contents]
    rfl
  have hfits : statement.values.all Cell.fits = true := by
    have hname : (Cell.text entry.name).fits = true := rfl
    simp only [statement, Statement.values, List.map_cons, List.map_nil, List.all_cons,
      List.all_nil, hname, fits_ofText?, Bool.and_self]
  have hrun : statement.run s.contents = .ok (1, container (putEntry entries entry) records) := by
    rw [hs.contents]
    simp only [statement, Statement.run, htarget, rowOf_metadataTable, replace_metadataTable, hset,
      bind, Except.bind]
  refine (Yields.intro (Q := fun _ s' => Holds file (putEntry entries entry) records s')
    (Action.execute_of_run hcheck hfits hs.writable hrun) ?_).bind fun _ _ hs' => .pure hs'
  exact ⟨hs.file_eq, hs.writable, rfl⟩

/-- The entry that keeps a change of texts. -/
def Entry.ofChange (change : MetadataChange) : Entry where
  name := change.name.display
  value :=
    match change.value with
    | .text value => some value
    | _ => none
  change := some (Keyword.word change.action)

theorem writeChanges_spec {changes : List MetadataChange} (hs : Holds file entries records s)
    (hchanges : ∀ change ∈ changes, change.IsText) :
    Yields (writeChanges changes) s fun _ s' =>
      Holds file ((changes.map Entry.ofChange).foldl putEntry entries) records s' := by
  induction changes generalizing entries s with
  | nil => exact .pure hs
  | cons change rest ih =>
      have hwrite : writeEntry change.name change.value (.text (Keyword.word change.action)) =
          writeEntry (.text (Entry.ofChange change).name)
            (.ofText? (Entry.ofChange change).value) (.ofText? (Entry.ofChange change).change) := by
        obtain ⟨name, rfl | ⟨value, rfl | rfl⟩⟩ := hchanges change (List.mem_cons_self ..) <;> rfl
      simp only [writeChanges, hwrite]
      exact (writeEntry_spec hs _).bind fun _ s' hs' =>
        ih hs' fun c hc => hchanges c (List.mem_cons_of_mem _ hc)

/-- What a patch says of itself. -/
def ownEntries (before after : String) (patchType : PatchType) : List Entry :=
  [⟨hashBeforeName, some before, none⟩, ⟨hashAfterName, some after, none⟩,
    ⟨patchTypeName, some (Keyword.word patchType), none⟩]

/-- The entries of a patch: its own, as far as no change displaces them, and the changes. -/
def headerEntries (before after : String) (patchType : PatchType)
    (changes : List MetadataChange) : List Entry :=
  ((ownEntries before after patchType).filter fun own =>
    decide (∀ entry ∈ changes.map Entry.ofChange, entry.name ≠ own.name)) ++
    changes.map Entry.ofChange

theorem writeHeader_spec {changes : List MetadataChange} (hs : Holds file [] records s)
    (hchanges : ∀ change ∈ changes, change.IsText)
    (hnames : changes.Pairwise fun a b => a.name.display ≠ b.name.display) (before after : String)
    (patchType : PatchType) :
    Yields (writeHeader (.text before) (.text after) patchType changes) s fun _ s' =>
      Holds file (headerEntries before after patchType changes) records s' := by
  have hdistinct : (changes.map Entry.ofChange).Pairwise fun a b => a.name ≠ b.name :=
    List.pairwise_map.2 hnames
  have hown : putEntry (putEntry (putEntry [] ⟨hashBeforeName, some before, none⟩)
      ⟨hashAfterName, some after, none⟩)
      ⟨patchTypeName, some (Keyword.word patchType), none⟩ = ownEntries before after patchType :=
    rfl
  refine (writeEntry_spec hs ⟨hashBeforeName, some before, none⟩).bind fun _ s₁ hs₁ => ?_
  refine (writeEntry_spec hs₁ ⟨hashAfterName, some after, none⟩).bind fun _ s₂ hs₂ => ?_
  refine (writeEntry_spec hs₂
    ⟨patchTypeName, some (Keyword.word patchType), none⟩).bind fun _ s₃ hs₃ => ?_
  rw [hown] at hs₃
  refine (writeChanges_spec hs₃ hchanges).mono fun _ s₄ hs₄ => ?_
  rwa [foldl_putEntry hdistinct] at hs₄

section Records

variable {record : PatchRecord}

theorem check_insertRecord (hs : Holds file entries records s) (record : PatchRecord) :
    (Statement.insert "patches" (recordCells record)).check s.contents = .ok () := by
  rw [hs.contents]
  rfl

theorem insertRecord_spec (hs : Holds file entries records s) (hrecord : Storable record)
    (hnew : ∀ old ∈ records, old.key ≠ record.key) :
    Yields (Action.execute (.insert "patches" (recordCells record))) s fun _ s' =>
      Holds file entries (records ++ [record]) s' := by
  have htarget : Statement.target (container entries records) "patches" =
      .ok (patchesTableOf records) := rfl
  have hset : (container entries records).setTable (patchesTableOf (records ++ [record])) =
      container entries (records ++ [record]) := rfl
  have hrun : (Statement.insert "patches" (recordCells record)).run s.contents =
      .ok (1, container entries (records ++ [record])) := by
    rw [hs.contents]
    simp only [Statement.run, htarget, rowOf_patchesTable records hrecord,
      insert_patchesTable hnew, hset, bind, Except.bind]
  exact .intro (Action.execute_of_run (check_insertRecord hs record) (fits_recordCells hrecord)
    hs.writable hrun) ⟨hs.file_eq, hs.writable, rfl⟩

/-- A second record of a key is refused. -/
theorem insertRecord_duplicate (hs : Holds file entries records s) (hrecord : Storable record)
    (hold : ∃ old ∈ records, old.key = record.key) :
    FailsWith (Action.execute (.insert "patches" (recordCells record))) s
      (.io (.statement file (.duplicate "patches" keyColumns))) := by
  have htarget : Statement.target (container entries records) "patches" =
      .ok (patchesTableOf records) := rfl
  have hrun : (Statement.insert "patches" (recordCells record)).run s.contents =
      .error (.duplicate "patches" keyColumns) := by
    rw [hs.contents]
    simp only [Statement.run, htarget, rowOf_patchesTable records hrecord,
      insert_patchesTable_duplicate hold, bind, Except.bind]
  rw [← hs.file_eq]
  exact ⟨s, Action.execute_of_run_error (check_insertRecord hs record) (fits_recordCells hrecord)
    hs.writable hrun⟩

theorem writeRecords_spec {new : List PatchRecord} (hs : Holds file entries records s)
    (hnew : ∀ record ∈ new, Storable record)
    (hkeys : (records ++ new).Pairwise fun r s => r.key ≠ s.key) (counters : TileCounters) :
    Yields (writeRecords counters new) s fun total s' =>
      total = new.foldl countWritten counters ∧ Holds file entries (records ++ new) s' := by
  induction new generalizing records s counters with
  | nil =>
      rw [List.append_nil]
      exact .pure ⟨rfl, hs⟩
  | cons record rest ih =>
      have hfresh : ∀ old ∈ records, old.key ≠ record.key := fun old hold =>
        (List.pairwise_append.1 hkeys).2.2 old hold record (List.mem_cons_self ..)
      rw [List.append_cons] at hkeys ⊢
      refine (insertRecord_spec hs (hnew record (List.mem_cons_self ..)) hfresh).bind
        fun _ s' hs' => ?_
      exact ih hs' (fun r hr => hnew r (List.mem_cons_of_mem _ hr)) hkeys _

/-- Among records with a repeated key one is refused. -/
theorem writeRecords_duplicate {new : List PatchRecord} (hs : Holds file entries records s)
    (hnew : ∀ record ∈ new, Storable record) (hold : records.Pairwise fun r s => r.key ≠ s.key)
    (hkeys : ¬ (records ++ new).Pairwise fun r s => r.key ≠ s.key) (counters : TileCounters) :
    FailsWith (writeRecords counters new) s
      (.io (.statement file (.duplicate "patches" keyColumns))) := by
  induction new generalizing records s counters with
  | nil => exact absurd (by rwa [List.append_nil]) hkeys
  | cons record rest ih =>
      have hrecord : Storable record := hnew record (List.mem_cons_self ..)
      by_cases hfresh : ∀ old ∈ records, old.key ≠ record.key
      · have hold' : (records ++ [record]).Pairwise fun r s => r.key ≠ s.key :=
          List.pairwise_append.2 ⟨hold, List.pairwise_singleton _ _, by simpa using hfresh⟩
        rw [List.append_cons] at hkeys
        refine (insertRecord_spec hs hrecord hfresh).failsWith_bind fun _ s' hs' => ?_
        exact ih hs' (fun r hr => hnew r (List.mem_cons_of_mem _ hr)) hold' hkeys _
      · push Not at hfresh
        exact (insertRecord_duplicate hs hrecord hfresh).bind

/-- Records of different keys are all written. -/
theorem writeScan_spec (hs : Holds file entries [] s)
    (hrecords : ∀ record ∈ records, Storable record)
    (hkeys : records.Pairwise fun r s => r.key ≠ s.key) :
    Yields (writeScan (.ofList records)) s fun total s' =>
      total = records.foldl countWritten .zero ∧ Holds file entries records s' :=
  (writeRecords_spec hs hrecords hkeys .zero).bind fun _ _ hs' => .intro rfl hs'

end Records

theorem note_spec (hs : Holds file entries records s) (change : Account → Account) :
    Yields (Action.note change) s fun _ s' => Holds file entries records s' :=
  .intro rfl ⟨hs.file_eq, hs.writable, hs.contents⟩

end TileAtlas.PatchFile
