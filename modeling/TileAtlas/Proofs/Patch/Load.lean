import TileAtlas.Proofs.Container.Visit
import TileAtlas.Proofs.Patch.Stored
import TileAtlas.Proofs.Tileset.Reached
import TileAtlas.Proofs.Tileset.Shown

/-!
# Reading a patch file

A patch file that has been written is read as it was: the hashes, the changes in their order and
the records.  Only the patch type may be lost to a change of the same name.
-/

namespace TileAtlas

theorem Metadata.get?_eq_some_iff {entries : List (Cell × Cell)} {name : String} {value : Cell}
    (hnames : entries.Pairwise fun a b => a.1 ≠ b.1) :
    get? ⟨entries⟩ (.text name) = some value ↔ (.text name, value) ∈ entries := by
  induction entries with
  | nil => simp [get?]
  | cons entry rest ih =>
      obtain ⟨hfirst, hrest⟩ := List.pairwise_cons.1 hnames
      obtain ⟨key, old⟩ := entry
      rw [get?_cons, List.mem_cons]
      by_cases hkey : key = .text name
      · have hnone : (Cell.text name, value) ∉ rest := fun hmem => hfirst _ hmem hkey
        simp [hkey, hnone, eq_comm]
      · simp [hkey, Ne.symm hkey, ih hrest]

namespace PatchFile

variable {file : String} {entries : List Entry} {records : List PatchRecord} {record : PatchRecord}

theorem checkPatch_container (file : String) (entries : List Entry) (records : List PatchRecord) :
    checkPatch file (container entries records) = .ok () := by
  have hname {a b : String} (ha : a ∈ catalogueNames) (hb : b ∈ catalogueNames) :
      Container.sameName a b = decide (a = b) := sameName_of_mem ha hb
  simp only [catalogueNames] at hname
  simp [checkPatch, isPatch, offers, Container.objectKind?, Container.table?, Container.columnNames,
    container, metadataTableOf, metadataTable, patchesTableOf, patchesTable, Layout.keyedTable,
    keyColumns, recordColumns, onFile, bind, Except.bind, pure, Except.pure, Column.word,
    Column.number, Column.payload, hname]

/-! ### The header -/

/-- An entry as it is read. -/
def Entry.header (entry : Entry) : HeaderRow :=
  ⟨.text entry.name, .ofText? entry.value, .ofText? entry.change⟩

/-- Entries in ascending order of names. -/
def byName (entries : List Entry) : List Entry :=
  sortBy (fun a b => decide (a.name ≤ b.name)) entries

theorem visit_entries (entries : List Entry) (records : List PatchRecord) :
    (container entries records).visit "metadata" ["name", "value", "change"]
      ⟨[], [], some "name", ["name", "value", "change"]⟩ =
        .ok ((byName entries).map Entry.row) := by
  have hle (a b : Entry) : (metadataTableOf entries).columnsLe ["name"] a.row b.row =
      decide (a.name ≤ b.name) := by
    rw [Table.columnsLe_eq, ← Cell.le_text_eq_decide a.name b.name]
    simp only [List.foldr_cons, List.foldr_nil, Ordering.then_eq]
    rfl
  have hsort : (metadataTableOf entries).inKeyOrder = (byName entries).map Entry.row := by
    show sortBy ((metadataTableOf entries).columnsLe ["name"]) (entries.map Entry.row) = _
    simp only [sortBy_map, hle, byName]
  have hkeyed : (metadataTableOf entries).visited
      ⟨[], [], some "name", ["name", "value", "change"]⟩ = (metadataTableOf entries).inKeyOrder :=
    Table.visited_of_key rfl
  have hvisit : (container entries records).visit "metadata" ["name", "value", "change"]
      ⟨[], [], some "name", ["name", "value", "change"]⟩ =
        .ok (((metadataTableOf entries).visited
          ⟨[], [], some "name", ["name", "value", "change"]⟩).map (Table.project [0, 1, 2])) := rfl
  rw [hvisit, hkeyed, hsort, List.map_map]
  rfl

theorem headerRows_container (file : String) (entries : List Entry) (records : List PatchRecord) :
    headerRows file (container entries records) = .ok ((byName entries).map Entry.header) := by
  have hrows : ((byName entries).map Entry.row).map
      (fun row => (⟨row.getD 0 .null, row.getD 1 .null, row.getD 2 .null⟩ : HeaderRow)) =
      (byName entries).map Entry.header := List.map_map
  have hle (a b : Entry) : a.header.name.le b.header.name = decide (a.name ≤ b.name) :=
    Cell.le_text_eq_decide a.name b.name
  have hsorted : sortBy (fun a b : Entry => decide (a.name ≤ b.name)) (byName entries) =
      byName entries :=
    sortBy_of_pairwise ((pairwise_le_sortBy Entry.name entries).imp decide_eq_true)
  simp only [headerRows, visit_entries, onFile, bind, Except.bind, pure, Except.pure, hrows,
    sortBy_map, hle, hsorted]

/-- What is read of the entries that have no change. -/
def controlsOf (entries : List Entry) : Metadata := controls ((byName entries).map Entry.header)

theorem get?_controlsOf {name : String} {value : Cell}
    (hnames : entries.Pairwise fun a b => a.name ≠ b.name) :
    (controlsOf entries).get? (.text name) = some value ↔
      ∃ entry ∈ entries,
        entry.name = name ∧ entry.change = none ∧ .ofText? entry.value = value := by
  have hsorted : (byName entries).Pairwise fun a b => a.name ≠ b.name :=
    ((sortBy_perm _ entries).pairwise_iff fun hab => hab.symm).2 hnames
  have hrows : (((byName entries).map Entry.header).filter (·.change.isNull)).map
        (fun row => (row.name, row.value)) =
      ((byName entries).filter (·.change.isNone)).map
        fun entry => (Cell.text entry.name, Cell.ofText? entry.value) := by
    rw [List.filter_map, List.map_map]
    refine congrArg (List.map _) (List.filter_congr fun entry _ => ?_)
    exact Cell.isNull_ofText? entry.change
  have hdistinct : (((byName entries).filter (·.change.isNone)).map
      fun entry => (Cell.text entry.name, Cell.ofText? entry.value)).Pairwise
        fun a b => a.1 ≠ b.1 :=
    List.pairwise_map.2 ((hsorted.filter _).imp fun hab heq => hab (Cell.text.inj heq))
  rw [controlsOf, controls, hrows, Metadata.ofEntries_of_pairwise _ hdistinct,
    Metadata.get?_eq_some_iff hdistinct, List.mem_map]
  · simp only [List.mem_filter, byName, mem_sortBy, Option.isNone_iff_eq_none, Prod.mk.injEq,
      Cell.text.injEq, and_assoc]
    exact exists_congr fun entry => and_congr_right fun _ => and_left_comm
  · intro entry hentry
    obtain ⟨entry, -, rfl⟩ := List.mem_map.1 hentry
    exact ⟨entry.name, rfl⟩

/-- The entries of changes are read as these changes. -/
theorem changesOf_header {changes : List MetadataChange} {entries : List Entry}
    (hentries : entries.filter (·.change.isSome) = changes.map Entry.ofChange)
    (hchanges : ∀ change ∈ changes, change.IsText) :
    changesOf (entries.map Entry.header) = .ok changes := by
  induction entries generalizing changes with
  | nil =>
      obtain rfl : changes = [] := by simpa using hentries.symm
      rfl
  | cons entry rest ih =>
      cases hchange : entry.change with
      | none =>
          rw [List.filter_cons_of_neg (by simp [hchange])] at hentries
          have hnull : entry.header.change.isNull = true := by
            simp [Entry.header, hchange]
          simp only [List.map_cons, changesOf, hnull, if_true, ih hentries hchanges]
      | some word =>
          rw [List.filter_cons_of_pos (by simp [hchange])] at hentries
          cases changes with
          | nil => cases hentries
          | cons change others =>
              obtain ⟨rfl, hrest⟩ := List.cons.inj hentries
              have hothers := ih hrest fun c hc => hchanges c (List.mem_cons_of_mem _ hc)
              obtain ⟨hparse, hbuild⟩ : Keyword.parse (Entry.ofChange change).header.change =
                  .ok change.action ∧ MetadataChange.build (Entry.ofChange change).header.name
                    change.action (Entry.ofChange change).header.value = .ok change := by
                obtain ⟨name, rfl | ⟨value, rfl | rfl⟩⟩ :=
                  hchanges change (List.mem_cons_self ..) <;> exact ⟨rfl, rfl⟩
              have hfilled : (Entry.ofChange change).header.change.isNull = false := rfl
              simp only [List.map_cons, changesOf, hfilled, Bool.false_eq_true, if_false, hparse,
                hbuild, hothers, bind, Except.bind, pure, Except.pure]

/-! ### A patch with its header -/

section Header

variable (before after : String) (patchType : PatchType) {changes : List MetadataChange}

theorem pairwise_headerEntries (hchanges : Metadata.Listed changes) :
    (headerEntries before after patchType changes).Pairwise fun a b => a.name ≠ b.name := by
  have hown : (ownEntries before after patchType).Pairwise fun a b => a.name ≠ b.name := by
    simp [ownEntries, hashBeforeName, hashAfterName, patchTypeName]
  refine List.pairwise_append.2 ⟨hown.filter _,
    List.pairwise_map.2 (hchanges.ascending.imp fun hlt => hlt.ne), fun own hmem entry hentry => ?_⟩
  exact (of_decide_eq_true (List.mem_filter.1 hmem).2 entry hentry).symm

/-- The hashes of a patch have reserved names, which no change displaces. -/
theorem own_mem_headerEntries {before after : String} {patchType : PatchType}
    (hchanges : Metadata.Listed changes) {own : Entry}
    (hown : own ∈ ownEntries before after patchType)
    (hreserved : isReserved (.text own.name) = true) :
    own ∈ headerEntries before after patchType changes := by
  refine List.mem_append_left _ (List.mem_filter.2 ⟨hown, decide_eq_true fun entry hentry => ?_⟩)
  obtain ⟨change, hchange, rfl⟩ := List.mem_map.1 hentry
  intro heq
  have hfree := hchanges.unreserved change hchange
  rw [(hchanges.texts change hchange).name_eq] at hfree
  rw [← heq] at hreserved
  simp [Entry.ofChange, hfree] at hreserved

theorem filter_headerEntries (hchanges : Metadata.Listed changes) :
    (byName (headerEntries before after patchType changes)).filter (·.change.isSome) =
      changes.map Entry.ofChange := by
  have hown : (headerEntries before after patchType changes).filter (·.change.isSome) =
      changes.map Entry.ofChange := by
    rw [headerEntries, List.filter_append, List.filter_eq_nil_iff.2, List.filter_eq_self.2,
      List.nil_append]
    · intro entry hentry
      obtain ⟨change, -, rfl⟩ := List.mem_map.1 hentry
      rfl
    · intro own hown
      have hmem := (List.mem_filter.1 hown).1
      simp only [ownEntries, List.mem_cons, List.not_mem_nil, or_false] at hmem
      rcases hmem with rfl | rfl | rfl <;> simp
  refine eq_of_perm_of_pairwise_lt Entry.name ?_ ?_ ?_
  · rw [← hown]
    exact (sortBy_perm _ _).filter _
  · exact (pairwise_lt_sortBy Entry.name
      (pairwise_headerEntries before after patchType hchanges)).filter _
  · exact List.pairwise_map.2 hchanges.ascending

/-- Whatever a change has made of the entry for it, there is a patch type to be read. -/
theorem patchTypeOf_headerEntries (hchanges : Metadata.Listed changes) :
    ∃ read, patchTypeOf (controlsOf (headerEntries before after patchType changes)) =
      .ok read := by
  unfold patchTypeOf
  cases hget : (controlsOf (headerEntries before after patchType changes)).get?
      (.text patchTypeName) with
  | none => exact ⟨.whole, rfl⟩
  | some value =>
      obtain ⟨entry, hentry, hname, hchange, rfl⟩ :=
        (get?_controlsOf (pairwise_headerEntries before after patchType hchanges)).1 hget
      rcases List.mem_append.1 hentry with hown | hchanged
      · have hmem := (List.mem_filter.1 hown).1
        simp only [ownEntries, List.mem_cons, List.not_mem_nil, or_false] at hmem
        rcases hmem with rfl | rfl | rfl
        · exact absurd hname (show hashBeforeName ≠ patchTypeName by decide)
        · exact absurd hname (show hashAfterName ≠ patchTypeName by decide)
        · exact ⟨patchType, by cases patchType <;> rfl⟩
      · obtain ⟨change, -, rfl⟩ := List.mem_map.1 hchanged
        cases hchange

theorem readHeader_container (file : String) (hchanges : Metadata.Listed changes)
    (records : List PatchRecord) :
    ∃ read, readHeader file (container (headerEntries before after patchType changes) records) =
      .ok ⟨.text before, .text after, read, changes⟩ := by
  have hdistinct := pairwise_headerEntries before after patchType hchanges
  obtain ⟨read, hread⟩ := patchTypeOf_headerEntries before after patchType hchanges
  have hget {own : Entry} (hown : own ∈ ownEntries before after patchType)
      (hreserved : isReserved (.text own.name) = true) (hchange : own.change = none) :
      (controlsOf (headerEntries before after patchType changes)).get? (.text own.name) =
        some (.ofText? own.value) :=
    (get?_controlsOf hdistinct).2
      ⟨own, own_mem_headerEntries hchanges hown hreserved, rfl, hchange, rfl⟩
  have hbefore : (controlsOf (headerEntries before after patchType changes)).get?
      (.text hashBeforeName) = some (.text before) :=
    hget (List.mem_cons_self ..) rfl rfl
  have hafter : (controlsOf (headerEntries before after patchType changes)).get?
      (.text hashAfterName) = some (.text after) :=
    hget (List.mem_cons_of_mem _ (List.mem_cons_self ..)) rfl rfl
  have hchangesRead := changesOf_header (filter_headerEntries before after patchType hchanges)
    hchanges.texts
  refine ⟨read, ?_⟩
  unfold controlsOf at hread hbefore hafter
  simp only [readHeader, headerRows_container, bind, Except.bind, hbefore, hafter, Option.getD_some,
    Cell.isNull, Bool.or_self, Bool.false_eq_true, if_false, typeAndChanges, hread, hchangesRead,
    pure, Except.pure]

end Header

/-! ### The records -/

theorem keyLe_recordRow (a b : PatchRecord) :
    TileRow.keyLe (.ofCells (recordRow a)) (.ofCells (recordRow b)) = decide (a.key ≤ b.key) := by
  have horder : TileRow.keyOrder (.ofCells (recordRow a)) (.ofCells (recordRow b)) =
      compare a.key b.key := by
    show (Cell.compare _ _).then ((Cell.compare _ _).then (Cell.compare _ _)) = _
    simp only [TileRow.ofCells, recordRow, TileKey.cells, List.cons_append, List.getD_cons_zero,
      List.getD_cons_succ, Cell.compare_int]
    rfl
  rw [TileRow.keyLe, horder, Bool.eq_iff_iff, decide_eq_true_iff, ← compare_le_iff_le,
    Ordering.isLE_iff_ne_gt]

theorem visit_records (entries : List Entry) (records : List PatchRecord) :
    (container entries records).visit "patches" (keyColumns ++ recordColumns)
      ⟨[], [], some "zoom_level", keyColumns ++ recordColumns⟩ =
        .ok ((sortBy (fun a b => decide (a.key ≤ b.key)) records).map recordRow) := by
  have hle (a b : PatchRecord) : (patchesTableOf records).columnsLe keyColumns (recordRow a)
      (recordRow b) = decide (a.key ≤ b.key) := by
    rw [Table.columnsLe_eq, ← keyLe_recordRow]
    simp only [keyColumns, List.foldr_cons, List.foldr_nil, Ordering.then_eq]
    rfl
  have hsort : (patchesTableOf records).inKeyOrder =
      (sortBy (fun a b => decide (a.key ≤ b.key)) records).map recordRow := by
    show sortBy ((patchesTableOf records).columnsLe keyColumns) (records.map recordRow) = _
    simp only [sortBy_map, hle]
  have hkeyed : (patchesTableOf records).visited
      ⟨[], [], some "zoom_level", keyColumns ++ recordColumns⟩ =
        (patchesTableOf records).inKeyOrder := Table.visited_of_key rfl
  have hvisit : (container entries records).visit "patches" (keyColumns ++ recordColumns)
      ⟨[], [], some "zoom_level", keyColumns ++ recordColumns⟩ =
        .ok (((patchesTableOf records).visited
          ⟨[], [], some "zoom_level", keyColumns ++ recordColumns⟩).map
            (Table.project [0, 1, 2, 3, 4, 5, 6, 7])) := rfl
  rw [hvisit, hkeyed, hsort, List.map_map]
  rfl

/-- The records are read in order of their keys. -/
theorem recordRows_sorted (batch : Int) (file : String) (entries : List Entry)
    (records : List PatchRecord) :
    recordRows batch file (container entries records) = (Tileset.checkBatch batch).map fun _ =>
      (sortBy (fun a b => decide (a.key ≤ b.key)) records).map recordRow := by
  have hsorted : sortBy (fun a b : PatchRecord => decide (a.key ≤ b.key))
      (sortBy (fun a b => decide (a.key ≤ b.key)) records) =
        sortBy (fun a b => decide (a.key ≤ b.key)) records :=
    sortBy_of_pairwise ((pairwise_le_sortBy PatchRecord.key records).imp decide_eq_true)
  simp only [recordRows, visit_records, onFile, bind, Except.bind, pure, Except.pure, sortBy_map,
    keyLe_recordRow, hsorted]
  cases Tileset.checkBatch batch <;> rfl

theorem recordRows_container {batch : Int} (hbatch : Tileset.checkBatch batch = .ok ())
    (file : String) (entries : List Entry) (hrecords : records.Pairwise fun r s => r.key < s.key) :
    recordRows batch file (container entries records) = .ok (records.map recordRow) := by
  rw [recordRows_sorted, hbatch,
    sortBy_of_pairwise (hrecords.imp fun hlt => decide_eq_true hlt.le)]
  rfl

theorem readRecord_recordRow (memory : Nat) (file : String) (hrecord : Storable record) :
    readRecord memory file (recordRow record) = .ok (some record) := by
  obtain ⟨key, action, encoding, tileData, patchData, resultHash⟩ := record
  have hrecordOf : recordOf memory key (.text (Keyword.word action)) (.text (Keyword.word encoding))
      (.ofPayload tileData) (.ofPayload patchData) resultHash =
        .ok ⟨key, action, encoding, tileData, patchData, resultHash⟩ := by
    have haction : Keyword.parse (.text (Keyword.word action)) = .ok action := by
      cases action <;> rfl
    have hencoding : Keyword.parse (.text (Keyword.word encoding)) = .ok encoding := by
      cases encoding <;> rfl
    have hbuild : PatchRecord.build key action encoding tileData patchData resultHash =
        .ok ⟨key, action, encoding, tileData, patchData, resultHash⟩ := by
      simp only [PatchRecord.build, hrecord.sound]
    simp only [recordOf, haction, hencoding, refused, payload_ofPayload, hbuild, bind, Except.bind]
  have hkey := key.ofCells?_cells
  simp only [readRecord, recordRow, TileKey.cells, List.cons_append, List.nil_append,
    List.getD_cons_zero, List.getD_cons_succ, hkey, hrecordOf]

theorem scanRecords_container {batch : Int} (hbatch : Tileset.checkBatch batch = .ok ())
    (file : String) (entries : List Entry) (hrecords : records.Pairwise fun r s => r.key < s.key)
    (hstorable : ∀ record ∈ records, Storable record) :
    scanRecords batch file (container entries records) = .ofList records := by
  have hreading : Scan.reading (readRecord usualMemory file) (records.map recordRow) =
      .ofList records := by
    clear hrecords
    induction records with
    | nil => rfl
    | cons record rest ih =>
        have hrest := ih fun r hr => hstorable r (List.mem_cons_of_mem _ hr)
        simp only [List.map_cons, Scan.reading,
          readRecord_recordRow usualMemory file (hstorable record (List.mem_cons_self ..)), hrest]
        rfl
  simp only [scanRecords, recordRows_container hbatch file entries hrecords, Scan.ofQuery, hreading]

/-- A patch that has been written is loaded as it was but for its type. -/
theorem load_container {batch : Int} (hbatch : Tileset.checkBatch batch = .ok ()) (file : String)
    (before after : String) (patchType : PatchType) {changes : List MetadataChange}
    (hchanges : Metadata.Listed changes) (hrecords : records.Pairwise fun r s => r.key < s.key)
    (hstorable : ∀ record ∈ records, Storable record) :
    ∃ read, load batch file
        (container (headerEntries before after patchType changes) records) =
      .ok ⟨.text before, .text after, read, changes, .ofList records⟩ := by
  obtain ⟨read, hread⟩ := readHeader_container before after patchType file hchanges records
  refine ⟨read, ?_⟩
  simp only [load, hread, scanRecords_container hbatch file _ hrecords hstorable, bind, Except.bind,
    pure, Except.pure]

end PatchFile

end TileAtlas
