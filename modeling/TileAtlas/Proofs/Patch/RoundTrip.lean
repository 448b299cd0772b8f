import TileAtlas.Proofs.Operation.Streamed

/-!
# Patches in any order

A patch that is made by other means than a difference may list its changes and its records in any
order.  What is read of a patch file does not depend on the order of its rows, so that such a patch
is read as the same patch in order.
-/

namespace TileAtlas

namespace PatchFile

/-! ### Counting -/

theorem absent_iff_remove {record : PatchRecord} (h : Storable record) :
    record.encoding = .absent ↔ record.action = .remove := by
  have hsound := h.sound
  cases haction : record.action <;> cases hencoding : record.encoding <;>
    simp [PatchRecord.problem?, haction, hencoding] at hsound ⊢

theorem countWritten_eq {record : PatchRecord} (h : Storable record) (counters : TileCounters) :
    countWritten counters record = { counters with
      written := counters.written + 1
      removed := counters.removed + if record.action = .remove then 1 else 0
      deltaEncoded := counters.deltaEncoded + if record.encoding = .delta then 1 else 0 } := by
  have habsent := absent_iff_remove h
  unfold countWritten
  cases hencoding : record.encoding <;> simp [hencoding, ← habsent]

/-- What is counted of records: how many they are, and how many of them are removals and deltas. -/
theorem foldl_countWritten {records : List PatchRecord} (h : ∀ record ∈ records, Storable record)
    (counters : TileCounters) : records.foldl countWritten counters = { counters with
      written := counters.written + records.length
      removed := counters.removed + records.countP (·.action = .remove)
      deltaEncoded := counters.deltaEncoded + records.countP (·.encoding = .delta) } := by
  induction records generalizing counters with
  | nil => rfl
  | cons record rest ih =>
      obtain ⟨hrecord, hrest⟩ := List.forall_mem_cons.1 h
      rw [List.foldl_cons, ih hrest, countWritten_eq hrecord]
      simp only [List.length_cons, List.countP_cons, decide_eq_true_eq, TileCounters.mk.injEq,
        true_and]
      omega

/-! ### Rows in any order -/

section Order

variable {entries entries' : List Entry} {records records' : List PatchRecord}

theorem headerRows_congr (file : String) (hperm : entries.Perm entries')
    (hnames : entries.Pairwise fun a b => a.name ≠ b.name) :
    headerRows file (container entries records) =
      headerRows file (container entries' records') := by
  rw [headerRows_container, headerRows_container, byName, byName,
    sortBy_eq_of_perm Entry.name hperm hnames]

theorem recordRows_congr (batch : Int) (file : String) (hperm : records.Perm records')
    (hkeys : records.Pairwise fun r s => r.key ≠ s.key) :
    recordRows batch file (container entries records) =
      recordRows batch file (container entries' records') := by
  rw [recordRows_sorted, recordRows_sorted, sortBy_eq_of_perm PatchRecord.key hperm hkeys]

/-- A patch file is read alike in whatever order its rows are. -/
theorem load_congr (batch : Int) (file : String) (hentries : entries.Perm entries')
    (hnames : entries.Pairwise fun a b => a.name ≠ b.name) (hrecords : records.Perm records')
    (hkeys : records.Pairwise fun r s => r.key ≠ s.key) :
    load batch file (container entries records) =
      load batch file (container entries' records') := by
  unfold load readHeader scanRecords
  rw [headerRows_congr file hentries hnames, recordRows_congr batch file hrecords hkeys]

theorem headerEntries_perm (before after : String) (patchType : PatchType)
    {changes changes' : List MetadataChange} (hperm : changes.Perm changes') :
    (headerEntries before after patchType changes).Perm
      (headerEntries before after patchType changes') := by
  have hentries := hperm.map Entry.ofChange
  have hown : ((ownEntries before after patchType).filter fun own =>
        decide (∀ entry ∈ changes.map Entry.ofChange, entry.name ≠ own.name)) =
      (ownEntries before after patchType).filter fun own =>
        decide (∀ entry ∈ changes'.map Entry.ofChange, entry.name ≠ own.name) := by
    refine List.filter_congr fun own _ => ?_
    simp only [hentries.mem_iff]
  rw [headerEntries, headerEntries, hown]
  exact hentries.append_left _

end Order

section RoundTrip

variable {s : Session} {changes : List MetadataChange} {records : List PatchRecord}

/-- Changes of texts with different names in the order of their names. -/
theorem listed_sorted (htexts : ∀ change ∈ changes, change.IsText)
    (hnames : changes.Pairwise fun a b => a.name.display ≠ b.name.display)
    (hfree : ∀ change ∈ changes, isReserved change.name = false) :
    Metadata.Listed
      (sortBy (fun a b => decide (a.name.display ≤ b.name.display)) changes) where
  texts change hchange := htexts change ((mem_sortBy _).1 hchange)
  unreserved change hchange := hfree change ((mem_sortBy _).1 hchange)
  ascending := pairwise_lt_sortBy (fun change : MetadataChange => change.name.display) hnames

/-- A patch is read in order, with the type that it was written with unless a change bears the
name of the type. -/
theorem load_unordered {batch : Int} (hbatch : Tileset.checkBatch batch = .ok ()) (file : String)
    (before after : String) (patchType : PatchType)
    (htexts : ∀ change ∈ changes, change.IsText)
    (hnames : changes.Pairwise fun a b => a.name.display ≠ b.name.display)
    (hfree : ∀ change ∈ changes, isReserved change.name = false)
    (hstorable : ∀ record ∈ records, Storable record)
    (hkeys : records.Pairwise fun r s => r.key ≠ s.key) :
    load batch file (container (headerEntries before after patchType changes) records) =
      .ok ⟨.text before, .text after, readType patchType changes,
        sortBy (fun a b => decide (a.name.display ≤ b.name.display)) changes,
        .ofList (sortBy (fun a b => decide (a.key ≤ b.key)) records)⟩ := by
  have hperm := (sortBy_perm (fun a b : MetadataChange =>
    decide (a.name.display ≤ b.name.display)) changes).symm
  have hrecords := (sortBy_perm (fun a b : PatchRecord => decide (a.key ≤ b.key)) records).symm
  have hlisted := listed_sorted htexts hnames hfree
  have hentries := headerEntries_perm before after patchType hperm
  have hdistinct : (headerEntries before after patchType changes).Pairwise
      fun a b => a.name ≠ b.name :=
    (hentries.pairwise_iff fun hab => hab.symm).2
      (pairwise_headerEntries before after patchType hlisted)
  have htype : readType patchType changes = readType patchType
      (sortBy (fun a b => decide (a.name.display ≤ b.name.display)) changes) := by
    simp only [readType, mem_sortBy]
  rw [load_congr batch file hentries hdistinct hrecords hkeys, htype]
  exact load_container_eq hbatch file hlisted (pairwise_lt_sortBy PatchRecord.key hkeys)
    fun record hrecord => hstorable record ((mem_sortBy _).1 hrecord)

/-- Of a patch whose changes have different names, free for changes, and whose records can be
stored: if the records have different keys, the patch is written to a new patch file and every
record is counted, and it is read from the file as it was, with its changes in the order of their
names and its records in the order of their keys; if a key is repeated, the writing fails. -/
theorem write_load (hempty : s.contents = .empty) (hwritable : s.writable = true)
    (before after : String) (patchType : PatchType)
    (htexts : ∀ change ∈ changes, change.IsText)
    (hnames : changes.Pairwise fun a b => a.name ≠ b.name)
    (hfree : ∀ change ∈ changes,
      isReserved change.name = false ∧ change.name ≠ .text patchTypeName)
    (hstorable : ∀ record ∈ records, Storable record) :
    let delta : DeltaSet := ⟨.text before, .text after, patchType, changes, .ofList records⟩
    let written := (create >>= fun _ => write delta) s
    ((records.Pairwise fun r s => r.key ≠ s.key) →
      ∃ s' changes' records',
        written = .ok ⟨0, records.length, 0, records.countP (·.action = .remove),
          records.countP (·.encoding = .delta)⟩ s' ∧
        checkPatch s'.file s'.contents = .ok () ∧
        changes'.Perm changes ∧ (changes'.Pairwise fun a b => a.name.display < b.name.display) ∧
        records'.Perm records ∧ (records'.Pairwise fun r s => r.key < s.key) ∧
        ∀ batch : Int, -0x80000000 ≤ batch ∧ batch < 0x80000000 →
          load batch s'.file s'.contents =
            .ok ⟨.text before, .text after, patchType, changes', .ofList records'⟩) ∧
    (¬ (records.Pairwise fun r s => r.key ≠ s.key) →
      ∃ s', written = .error (.io (.statement s.file (.duplicate "patches" keyColumns))) s') := by
  intro delta written
  have hdisplay : changes.Pairwise fun a b => a.name.display ≠ b.name.display := by
    refine hnames.imp_of_mem fun {a b} ha hb hab heq => hab ?_
    rw [(htexts a ha).name_eq, (htexts b hb).name_eq, heq]
  constructor
  · intro hkeys
    have hyields : Yields (create >>= fun _ => write delta) s fun total s' =>
        total = records.foldl countWritten .zero ∧
          Holds s.file (headerEntries before after patchType changes) records s' :=
      (create_spec hempty hwritable).bind fun _ _ hs₁ =>
        (writeHeader_spec hs₁ htexts hdisplay before after patchType).bind fun _ _ hs₂ =>
          writeScan_spec hs₂ hstorable hkeys
    obtain ⟨total, s', hwritten, rfl, hs'⟩ := hyields
    refine ⟨s', sortBy (fun a b => decide (a.name.display ≤ b.name.display)) changes,
      sortBy (fun a b => decide (a.key ≤ b.key)) records, ?_, ?_, sortBy_perm _ _,
      pairwise_lt_sortBy (fun change : MetadataChange => change.name.display) hdisplay,
      sortBy_perm _ _, pairwise_lt_sortBy PatchRecord.key hkeys, fun batch hbatch => ?_⟩
    · rw [foldl_countWritten hstorable] at hwritten
      simpa only [TileCounters.zero, Nat.zero_add] using hwritten
    · rw [hs'.contents]
      exact checkPatch_container _ _ _
    · have htype : readType patchType changes = patchType :=
        readType_eq_iff.2 (.inr fun change hchange => (hfree change hchange).2)
      rw [hs'.contents, load_unordered (checkBatch_of_range hbatch) s'.file before after patchType
        htexts hdisplay (fun change hchange => (hfree change hchange).1) hstorable hkeys, htype]
  · intro hkeys
    have hfails : FailsWith (create >>= fun _ => write delta) s
        (.io (.statement s.file (.duplicate "patches" keyColumns))) :=
      (create_spec hempty hwritable).failsWith_bind fun _ _ hs₁ =>
        (writeHeader_spec hs₁ htexts hdisplay before after patchType).failsWith_bind fun _ _ hs₂ =>
          (writeRecords_duplicate hs₂ hstorable .nil hkeys .zero).bind
    exact hfails

/-- A patch with everything out of order: an empty value, an empty payload and none, and a removal
before a delta. -/
theorem write_load_unordered :
    let removal : PatchRecord := .removed ⟨1, 0, 0⟩
    let change : PatchRecord := .changedBy ⟨0, 0, 0⟩ ⟨#[]⟩ ⟨#[7]⟩
    let addition : PatchRecord := ⟨⟨1, 1, 0⟩, .add, .full, some ⟨#[]⟩, none, .null⟩
    let remove : MetadataChange := .remove (.text "b")
    let add : MetadataChange := .add (.text "a") (.text "")
    let delta : DeltaSet :=
      ⟨.text "x", .text "", .delta, [remove, add], .ofList [addition, removal, change]⟩
    let start := Session.start "p" true .empty
    (∃ s', (create >>= fun _ => write delta) start = .ok ⟨0, 3, 0, 1, 1⟩ s' ∧
      load 1 s'.file s'.contents =
        .ok ⟨.text "x", .text "", .delta, [add, remove], .ofList [change, removal, addition]⟩) ∧
    ∃ s', (create >>= fun _ => write { delta with records := .ofList [removal, removal] }) start =
      .error (.io (.statement "p" (.duplicate "patches" keyColumns))) s' := by
  intro removal change addition remove add delta start
  have htexts : ∀ c ∈ [remove, add], c.IsText := by
    simp only [List.forall_mem_cons]
    exact ⟨⟨"b", .inl rfl⟩, ⟨"a", .inr ⟨"", .inl rfl⟩⟩, by simp⟩
  have hremoval : Storable removal := ⟨rfl, ⟨none, rfl⟩, by decide⟩
  have hstorable : ∀ record ∈ [addition, removal, change], Storable record := by
    simp only [List.forall_mem_cons]
    exact ⟨⟨rfl, ⟨none, rfl⟩, by decide⟩, hremoval, ⟨rfl, ⟨some _, rfl⟩, by decide⟩, by simp⟩
  obtain ⟨s', changes', records', hwritten, -, hchanges, hnames, hrecords, hkeys, hload⟩ :=
    (write_load (s := start) rfl rfl "x" "" .delta htexts (by decide) (by decide) hstorable).1
      (by decide)
  refine ⟨⟨s', hwritten, ?_⟩, ?_⟩
  · obtain rfl : changes' = [add, remove] := eq_of_perm_of_pairwise_lt
      (fun c : MetadataChange => c.name.display) (hchanges.trans (.swap ..)) hnames (by decide)
    obtain rfl : records' = [change, removal, addition] := eq_of_perm_of_pairwise_lt
      PatchRecord.key (hrecords.trans (List.reverse_perm [change, removal, addition])) hkeys
      (by decide)
    exact hload 1 (by decide)
  · have htwice : ∀ record ∈ [removal, removal], Storable record := by
      simp only [List.forall_mem_cons]
      exact ⟨hremoval, hremoval, by simp⟩
    exact (write_load (s := start) rfl rfl "x" "" .delta htexts (by decide) (by decide) htwice).2
      (by decide)

/-- The records of a patch cannot be fetched in batches that are too large. -/
theorem not_load_of_hugeBatch :
    let delta : DeltaSet := ⟨.text "", .text "", .whole, [], .ofList []⟩
    ∃ s', (create >>= fun _ => write delta) (.start "p" true .empty) = .ok .zero s' ∧
      load 0x80000000 s'.file s'.contents ≠ .ok delta := by
  intro delta
  refine ⟨_, rfl, ?_⟩
  decide +kernel

end RoundTrip

end PatchFile

end TileAtlas
