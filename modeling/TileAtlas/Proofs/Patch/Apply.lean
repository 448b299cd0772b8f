import TileAtlas.Patch.Apply
import TileAtlas.Proofs.Tileset.Merge

/-!
# Applying a patch at once

A patch is applied record by record, and every record is checked against the tileset that the
records before it have made.  Since their keys ascend, no record sees the work of another one, and
the outcome is that of all records applied to the original tiles at once.
-/

namespace TileAtlas

/-- Whether a computed hash is the recorded one but for the case of letters; no hash is recorded
as null. -/
def HashIs (computed : Option String) (recorded : Cell) : Prop :=
  match computed with
  | none => recorded = .null
  | some c => ∃ e, recorded = .text e ∧ Text.upper c = Text.upper e

theorem sameHash_eq_true {computed : Option String} {recorded : Cell} :
    sameHash computed recorded = .ok true ↔ HashIs computed recorded := by
  cases computed with
  | none => cases recorded <;> simp [sameHash, HashIs, Cell.isNull]
  | some c => cases recorded <;> simp [sameHash, HashIs]

namespace PatchRecord

variable (differ : Differ) (tiles : List Tile) (record : PatchRecord)

/-- Whether a record fits the tiles that it is applied to. -/
def Checks : Prop :=
  match record.encoding with
  | .absent => True
  | .full => HashIs (tileHash record.tileData) record.resultHash
  | .delta => ∃ old new, payloadAt tiles record.key = some old ∧
      differ.apply old (record.patchData.getD ByteArray.empty) = .ok new ∧
      HashIs (some (checkHash new)) record.resultHash

/-- The tile that a record puts. -/
def written? : Option Tile :=
  match record.encoding with
  | .absent => none
  | .full => some ⟨record.key, record.tileData⟩
  | .delta =>
    match payloadAt tiles record.key with
    | none => none
    | some old =>
      match differ.apply old (record.patchData.getD ByteArray.empty) with
      | .ok new => some ⟨record.key, some new⟩
      | .error _ => none

variable {differ tiles record}

theorem key_of_written? {tile : Tile} (h : record.written? differ tiles = some tile) :
    tile.key = record.key := by
  unfold written? at h
  split at h
  · cases h
  · obtain rfl := Option.some.inj h
    rfl
  · split at h
    · cases h
    · split at h
      · obtain rfl := Option.some.inj h
        rfl
      · cases h

theorem checks_congr {tiles' : List Tile}
    (h : payloadAt tiles record.key = payloadAt tiles' record.key) :
    record.Checks differ tiles ↔ record.Checks differ tiles' := by
  simp only [Checks, h]

theorem written?_congr {tiles' : List Tile}
    (h : payloadAt tiles record.key = payloadAt tiles' record.key) :
    record.written? differ tiles = record.written? differ tiles' := by
  simp only [written?, h]

/-- The counts after a record has been applied. -/
def counted (counters : TileCounters) (record : PatchRecord) : TileCounters :=
  let counters := { counters with read := counters.read + 1 }
  match record.encoding with
  | .absent => { counters with removed := counters.removed + 1 }
  | .full => { counters with written := counters.written + 1 }
  | .delta => { counters with
      written := counters.written + 1
      deltaEncoded := counters.deltaEncoded + 1 }

end PatchRecord

/-- The tiles after records have been applied to all of them at once: those whose keys have no
record, and those that the records put. -/
def updateTiles (differ : Differ) (tiles : List Tile) (records : List PatchRecord) : List Tile :=
  tiles.filter (fun tile => decide (∀ record ∈ records, record.key ≠ tile.key)) ++
    records.filterMap (·.written? differ tiles)

/-- The tiles after one record. -/
def stepTiles (differ : Differ) (tiles : List Tile) (record : PatchRecord) : List Tile :=
  (tiles.filter fun tile => !decide (tile.key = record.key)) ++
    (record.written? differ tiles).toList

/-- A record changes the tile at its own key only. -/
theorem payloadAt_stepTiles {differ : Differ} {record : PatchRecord} {key : TileKey}
    (hkey : key ≠ record.key) (tiles : List Tile) :
    payloadAt (stepTiles differ tiles record) key = payloadAt tiles key := by
  have hwritten : (record.written? differ tiles).toList.find? (fun tile => tile.key = key) =
      none := by
    refine List.find?_eq_none.2 fun tile htile => ?_
    have htileKey := PatchRecord.key_of_written? (Option.mem_toList.1 htile)
    simpa [htileKey] using hkey.symm
  have hrest : (tiles.filter fun tile => !decide (tile.key = record.key)).find?
      (fun tile => tile.key = key) = tiles.find? fun tile => tile.key = key := by
    rw [List.find?_filter]
    refine congrArg (fun p => tiles.find? p) (funext fun tile => ?_)
    by_cases htile : tile.key = key <;> simp [htile, hkey]
  rw [payloadAt, stepTiles, List.find?_append, hwritten, hrest, Option.or_none, payloadAt]

theorem updateTiles_cons {differ : Differ} {record : PatchRecord} {rest : List PatchRecord}
    (hkeys : ∀ other ∈ rest, other.key ≠ record.key) (tiles : List Tile) :
    updateTiles differ tiles (record :: rest) =
      updateTiles differ (stepTiles differ tiles record) rest := by
  have hrest : rest.filterMap (·.written? differ tiles) =
      rest.filterMap (·.written? differ (stepTiles differ tiles record)) :=
    List.filterMap_congr fun other hother =>
      PatchRecord.written?_congr (payloadAt_stepTiles (hkeys other hother) tiles).symm
  have hwritten : (record.written? differ tiles).toList.filter
      (fun tile => decide (∀ other ∈ rest, other.key ≠ tile.key)) =
      (record.written? differ tiles).toList := by
    refine List.filter_eq_self.2 fun tile htile => decide_eq_true fun other hother => ?_
    rw [PatchRecord.key_of_written? (Option.mem_toList.1 htile)]
    exact hkeys other hother
  have htiles : tiles.filter (fun tile => decide (∀ other ∈ record :: rest, other.key ≠ tile.key)) =
      (tiles.filter fun tile => !decide (tile.key = record.key)).filter
        fun tile => decide (∀ other ∈ rest, other.key ≠ tile.key) := by
    rw [List.filter_filter]
    refine List.filter_congr fun tile _ => ?_
    rw [Bool.eq_iff_iff]
    simp only [List.forall_mem_cons, Bool.and_eq_true, Bool.not_eq_true', decide_eq_true_eq,
      decide_eq_false_iff_not]
    exact ⟨fun ⟨hfirst, hothers⟩ => ⟨hothers, Ne.symm hfirst⟩,
      fun ⟨hothers, hfirst⟩ => ⟨Ne.symm hfirst, hothers⟩⟩
  rw [updateTiles, updateTiles, htiles, ← hrest, stepTiles, List.filter_append, hwritten,
    List.append_assoc]
  cases hfirst : record.written? differ tiles <;> simp [hfirst]

/-- Whether records can be applied to tiles after a record of some key: their keys ascend from
there on, and each one fits the original tiles. -/
structure Applicable (differ : Differ) (tiles : List Tile) (previous : Option TileKey)
    (records : List PatchRecord) : Prop where
  above : ∀ key ∈ previous, ∀ record ∈ records, key < record.key
  ascending : records.Pairwise fun r s => r.key < s.key
  checks : ∀ record ∈ records, record.Checks differ tiles

theorem applicable_cons {differ : Differ} {tiles : List Tile} {previous : Option TileKey}
    {record : PatchRecord} {rest : List PatchRecord} :
    Applicable differ tiles previous (record :: rest) ↔ (∀ key ∈ previous, key < record.key) ∧
      record.Checks differ tiles ∧
      Applicable differ (stepTiles differ tiles record) (some record.key) rest := by
  constructor
  · rintro ⟨habove, hascending, hchecks⟩
    obtain ⟨hfirst, hrest⟩ := List.pairwise_cons.1 hascending
    refine ⟨fun key hkey => habove key hkey record (List.mem_cons_self ..),
      hchecks record (List.mem_cons_self ..), by simpa using hfirst, hrest, fun other hother => ?_⟩
    rw [PatchRecord.checks_congr (payloadAt_stepTiles (hfirst other hother).ne' tiles)]
    exact hchecks other (List.mem_cons_of_mem _ hother)
  · rintro ⟨habove, hcheck, hnext⟩
    have hfirst : ∀ other ∈ rest, record.key < other.key := hnext.above record.key rfl
    refine ⟨fun key hkey other hother => ?_, List.pairwise_cons.2 ⟨hfirst, hnext.ascending⟩,
      fun other hother => ?_⟩
    · rcases List.mem_cons.1 hother with rfl | hother
      · exact habove key hkey
      · exact (habove key hkey).trans (hfirst other hother)
    · rcases List.mem_cons.1 hother with rfl | hother
      · exact hcheck
      · rw [← PatchRecord.checks_congr (payloadAt_stepTiles (hfirst other hother).ne' tiles)]
        exact hnext.checks other hother

section Records

variable {t : Tileset} {file : String} {h : Holding} {s : Session} {differ : Differ}
  {record : PatchRecord} {P : Set Bytes}

theorem requireHash_decides (computed : Option String) (recorded : Cell) (fault : Fault)
    (s : Session) :
    Decides (requireHash computed recorded fault) s (HashIs computed recorded)
      fun _ s' => s' = s := by
  rw [← sameHash_eq_true]
  cases hsame : sameHash computed recorded with
  | error failure =>
      refine ⟨nofun, fun _ => ⟨failure, s, ?_⟩⟩
      simp only [requireHash, hsame]
      rfl
  | ok same =>
      cases same with
      | true =>
          refine ⟨fun _ => ⟨(), s, ?_, rfl⟩, fun hnot => absurd rfl hnot⟩
          simp only [requireHash, hsame]
          rfl
      | false =>
          refine ⟨nofun, fun _ => ⟨.fault fault, s, ?_⟩⟩
          simp only [requireHash, hsame]
          rfl

/-- What a record does to a holding all of whose images are known. -/
structure Advances (P : Set Bytes) (h h' : Holding) (tiles : List Tile) : Prop where
  tiles_eq : h'.tiles = tiles
  metadata_eq : h'.metadata = h.metadata
  images : ∀ image ∈ h'.images, image ∈ P

theorem put_advances (hP : Set.InjOn payloadHash P) (himages : ∀ image ∈ h.images, image ∈ P)
    (layout : Layout) (key : TileKey) {data : Option Bytes} (hdata : ∀ bytes ∈ data, bytes ∈ P) :
    Advances P h (h.put layout key data) ((h.delete key).tiles ++ [⟨key, data⟩]) := by
  cases data with
  | none => exact ⟨rfl, rfl, himages⟩
  | some bytes =>
      have hbytes : bytes ∈ P := hdata bytes rfl
      refine ⟨?_, ?_, fun image himage => ?_⟩
      · show ((h.delete key).store layout bytes).tiles ++ [⟨key, some (h.kept layout bytes)⟩] = _
        rw [Holding.tiles_store, Holding.kept_eq hP himages hbytes]
      · exact Holding.metadata_store bytes
      · rcases List.mem_cons.1 (Holding.images_store_subset bytes himage) with rfl | himage
        · exact hbytes
        · exact himages image himage

theorem patched_eq_ok {key : TileKey} {old delta new : Bytes} :
    PatchRecord.patched differ key old delta = .ok new ↔ differ.apply old delta = .ok new := by
  unfold PatchRecord.patched
  split
  next why heq => simp [heq]
  · rfl

theorem patched_spec {old delta new : Bytes} (hnew : differ.apply old delta = .ok new)
    (key : TileKey) (s : Session) :
    Yields (Action.ofExcept (PatchRecord.patched differ key old delta)) s fun result s' =>
      result = new ∧ s' = s :=
  .intro (Action.ofExcept_ok (patched_eq_ok.2 hnew) s) ⟨rfl, rfl⟩

theorem patched_fails {old delta : Bytes} {failure : Failure}
    (hfailure : differ.apply old delta = .error failure) (key : TileKey) (s : Session) :
    Fails (Action.ofExcept (PatchRecord.patched differ key old delta)) s := by
  cases herror : PatchRecord.patched differ key old delta with
  | ok new =>
      rw [patched_eq_ok, hfailure] at herror
      cases herror
  | error failure => exact ⟨failure, s, rfl⟩

theorem entry_spec (hs : t.Holds file h s) {key : TileKey} (hkey : key.cells.all Cell.fits = true) :
    Yields (Action.query (t.entry? key)) s fun entry s' =>
      s' = s ∧ entry.bind (·.data) = payloadAt h.tiles key :=
  .intro (Action.query_ok (by
    rw [hs.contents]
    exact Tileset.tileAt_container _ hs.valid hkey)) ⟨rfl, rfl⟩

/-- A record is applied if it fits the tiles, and fails otherwise. -/
theorem PatchRecord.applyTo_decides (hs : t.Holds file h s)
    (hbatch : Tileset.checkBatch t.batch = .ok ()) (hP : Set.InjOn payloadHash P)
    (himages : ∀ image ∈ h.images, image ∈ P)
    (hkey : record.key.cells.all Cell.fits = true)
    (hwritten : ∀ tile ∈ record.written? differ h.tiles, ∀ data ∈ tile.data, data ∈ P)
    (counters : TileCounters) :
    Decides (record.applyTo differ t { counters with read := counters.read + 1 }) s
      (record.Checks differ h.tiles) fun counters' s' =>
        counters' = counted counters record ∧ ∃ h', t.Holds file h' s' ∧
          Advances P h h' (stepTiles differ h.tiles record) := by
  have hput {data : Option Bytes} (hdata : ∀ bytes ∈ data, bytes ∈ P) :
      Yields (t.put record.key data) s fun _ s' => ∃ h', t.Holds file h' s' ∧
        Advances P h h' ((h.delete record.key).tiles ++ [⟨record.key, data⟩]) :=
    (Tileset.put_spec hs hkey data hbatch).mono fun _ s' hs' =>
      ⟨_, hs', put_advances hP himages t.shape.layout record.key hdata⟩
  cases hencoding : record.encoding with
  | absent =>
      simp only [Checks, stepTiles, written?, applyTo, counted, hencoding]
      refine ⟨fun _ => (Tileset.delete_spec hs hkey).bind fun _ s' hs' => ?_,
        fun hnot => absurd trivial hnot⟩
      exact .pure ⟨rfl, h.delete record.key, hs', (List.append_nil _).symm, rfl, himages⟩
  | full =>
      simp only [Checks, stepTiles, written?, applyTo, counted, hencoding] at hwritten ⊢
      refine (requireHash_decides _ _ _ s).bind_yields fun _ _ s' hs' => ?_
      rw [hs']
      exact (hput (hwritten _ rfl)).bind fun _ s' hs' => .pure ⟨rfl, hs'⟩
  | delta =>
      simp only [Checks, stepTiles, written?, applyTo, counted, hencoding] at hwritten ⊢
      refine (entry_spec hs hkey).bind_decides ?_
      rintro entry s' ⟨hs', hdata⟩
      rw [hs', hdata]
      cases hold : payloadAt h.tiles record.key with
      | none => exact ⟨by simp, fun _ => ⟨_, _, rfl⟩⟩
      | some old =>
          cases hnew : differ.apply old (record.patchData.getD ByteArray.empty) with
          | error failure =>
              exact ⟨by simp [hnew], fun _ => (patched_fails hnew record.key s).bind⟩
          | ok new =>
              simp only [hold, hnew] at hwritten ⊢
              have hcheck : HashIs (some (checkHash new)) record.resultHash ↔
                  ∃ old' new', some old = some old' ∧
                    differ.apply old' (record.patchData.getD ByteArray.empty) = .ok new' ∧
                    HashIs (some (checkHash new')) record.resultHash := by
                simp [hnew]
              rw [← hcheck]
              refine (patched_spec hnew record.key s).bind_decides ?_
              rintro _ s' ⟨rfl, hs'⟩
              rw [hs']
              refine (requireHash_decides _ _ _ s).bind_yields fun _ _ s' hs' => ?_
              rw [hs']
              exact (hput (hwritten _ rfl)).bind fun _ s' hs' => .pure ⟨rfl, hs'⟩

theorem applyRecords_of_above {record : PatchRecord} {previous : Option TileKey}
    (habove : ∀ key ∈ previous, key < record.key) (counters : TileCounters)
    (rest : List PatchRecord) :
    applyRecords differ t counters previous (record :: rest) = (do
      let counters ← record.applyTo differ t { counters with read := counters.read + 1 }
      applyRecords differ t counters (some record.key) rest) := by
  cases previous with
  | none => rfl
  | some key => simp only [applyRecords, if_pos (habove key rfl)]

theorem applyRecords_of_not_above {record : PatchRecord} {previous : Option TileKey}
    (habove : ¬ ∀ key ∈ previous, key < record.key) (counters : TileCounters)
    (rest : List PatchRecord) :
    ∃ failure, ∀ s : Session,
      applyRecords differ t counters previous (record :: rest) s = .error failure s := by
  obtain ⟨key, rfl, hkey⟩ : ∃ key, previous = some key ∧ ¬ key < record.key := by
    simpa using habove
  refine ⟨.fault (.patchMismatch record.key (.outOfOrder key)), fun s => ?_⟩
  simp only [applyRecords, if_neg hkey, bind_apply, throw_apply]

/-- Records are applied one after the other exactly if they can be applied at once, and what is
held then is what becomes of the tiles at once. -/
theorem applyRecords_decides {records : List PatchRecord} {previous : Option TileKey}
    (hs : t.Holds file h s) (hbatch : Tileset.checkBatch t.batch = .ok ())
    (hP : Set.InjOn payloadHash P) (himages : ∀ image ∈ h.images, image ∈ P)
    (hkeys : ∀ record ∈ records, record.key.cells.all Cell.fits = true)
    (hwritten : ∀ record ∈ records, (∀ key ∈ previous, key < record.key) →
      ∀ tile ∈ record.written? differ h.tiles, ∀ data ∈ tile.data, data ∈ P)
    (counters : TileCounters) :
    Decides (applyRecords differ t counters previous records) s
      (Applicable differ h.tiles previous records) fun counters' s' =>
        counters' = records.foldl PatchRecord.counted counters ∧ ∃ h', t.Holds file h' s' ∧
          Advances P h h' (updateTiles differ h.tiles records) := by
  -- the records that are left find the tiles at their keys unchanged after each step
  induction records generalizing h s previous counters with
  | nil =>
      refine ⟨fun _ => .pure ⟨rfl, h, hs, ?_, rfl, himages⟩, fun hnot => ?_⟩
      · simp [updateTiles]
      · exact absurd ⟨by simp, .nil, by simp⟩ hnot
  | cons record rest ih =>
      have hrestKeys : ∀ other ∈ rest, other.key.cells.all Cell.fits = true := fun other hother =>
        hkeys other (List.mem_cons_of_mem _ hother)
      rw [applicable_cons]
      by_cases habove : ∀ key ∈ previous, key < record.key
      swap
      · refine ⟨fun hall => absurd hall.1 habove, fun _ => ?_⟩
        obtain ⟨failure, herror⟩ := applyRecords_of_not_above habove counters rest
        exact ⟨failure, s, herror s⟩
      have hguard : applyRecords differ t counters previous (record :: rest) s = _ :=
        congrFun (applyRecords_of_above habove counters rest) s
      have hlater : ∀ other ∈ rest, (∀ key ∈ some record.key, key < other.key) →
          ∀ tile ∈ other.written? differ (stepTiles differ h.tiles record), ∀ data ∈ tile.data,
            data ∈ P := by
        intro other hother hlt
        have hkey : record.key < other.key := hlt record.key rfl
        rw [PatchRecord.written?_congr (payloadAt_stepTiles hkey.ne' h.tiles)]
        exact hwritten other (List.mem_cons_of_mem _ hother) fun key hprevious =>
          (habove key hprevious).trans hkey
      have hfirst := record.applyTo_decides hs hbatch hP himages
        (hkeys record (List.mem_cons_self ..)) (hwritten record (List.mem_cons_self ..) habove)
        counters
      refine .mono (.of_eq hguard (hfirst.bind ?_)) (and_iff_right habove).symm fun _ _ _ h => h
      rintro - _ s' ⟨rfl, h', hs', hstep⟩
      rw [← hstep.tiles_eq] at hlater ⊢
      refine (ih hs' hstep.images hrestKeys hlater _).mono .rfl ?_
      rintro hrest _ s'' ⟨rfl, h'', hs'', hend⟩
      refine ⟨rfl, h'', hs'', ?_, hend.metadata_eq.trans hstep.metadata_eq, hend.images⟩
      rw [hend.tiles_eq, hstep.tiles_eq, updateTiles_cons]
      exact fun other hother => (hrest.above record.key rfl other hother).ne'

end Records

/-- What a patch needs of the tiles and the metadata that it is applied to. -/
structure DeltaSet.Applies (delta : DeltaSet) (differ : Differ) (policy : MergePolicy)
    (tiles : List Tile) (metadata : Metadata) : Prop where
  base : HashIs (some (aggregateHash tiles)) delta.before
  ascending : delta.records.items.Pairwise fun r s => r.key < s.key
  checks : ∀ record ∈ delta.records.items, record.Checks differ tiles
  merges : ∃ merged, (metadata.merge policy delta.metadataChanges).2 = .ok merged
  result : HashIs (some (aggregateHash (inOrder (updateTiles differ tiles delta.records.items))))
    delta.after

section DeltaSet

variable {t : Tileset} {file : String} {h : Holding} {s : Session} {differ : Differ}
  {P : Set Bytes}

theorem applicable_sorted (hkeys : h.tiles.Pairwise fun a b => a.key ≠ b.key)
    {records : List PatchRecord} :
    Applicable differ h.tiles none records ↔
      records.Pairwise (fun r s => r.key < s.key) ∧
        ∀ record ∈ records, record.Checks differ h.sorted := by
  have hchecks (record : PatchRecord) :
      record.Checks differ h.sorted ↔ record.Checks differ h.tiles :=
    PatchRecord.checks_congr (payloadAt_inOrder hkeys record.key)
  simp only [hchecks]
  exact ⟨fun ⟨_, hascending, hall⟩ => ⟨hascending, hall⟩,
    fun ⟨hascending, hall⟩ => ⟨by simp, hascending, hall⟩⟩

/-- The conditions of a patch in the order in which they are found out. -/
theorem applies_iff {delta : DeltaSet} {policy : MergePolicy} {metadata : Metadata}
    (hkeys : h.tiles.Pairwise fun a b => a.key ≠ b.key) :
    delta.Applies differ policy h.sorted metadata ↔
      HashIs (some (aggregateHash h.sorted)) delta.before ∧
        Applicable differ h.tiles none delta.records.items ∧
        (∃ merged, (metadata.merge policy delta.metadataChanges).2 = .ok merged) ∧
        HashIs (some (aggregateHash (inOrder (updateTiles differ h.sorted delta.records.items))))
          delta.after := by
  rw [applicable_sorted hkeys]
  constructor
  · rintro ⟨hbase, hascending, hchecks, hmerges, hresult⟩
    exact ⟨hbase, ⟨hascending, hchecks⟩, hmerges, hresult⟩
  · rintro ⟨hbase, ⟨hascending, hchecks⟩, hmerges, hresult⟩
    exact ⟨hbase, hascending, hchecks, hmerges, hresult⟩

theorem inOrder_updateTiles_sorted (hkeys : h.tiles.Pairwise fun a b => a.key ≠ b.key)
    {records : List PatchRecord}
    (hupdated : (updateTiles differ h.tiles records).Pairwise fun a b => a.key ≠ b.key) :
    inOrder (updateTiles differ h.sorted records) =
      inOrder (updateTiles differ h.tiles records) := by
  have hwritten : records.filterMap (·.written? differ h.sorted) =
      records.filterMap (·.written? differ h.tiles) :=
    List.filterMap_congr fun record _ =>
      PatchRecord.written?_congr (payloadAt_inOrder hkeys record.key)
  refine (inOrder_eq_of_perm ?_ hupdated).symm
  rw [updateTiles, updateTiles, hwritten]
  exact ((sortBy_perm _ h.tiles).symm.filter _).append_right _

/-- What the last steps of applying a patch leave in the metadata: the aggregate hash, but neither
of the hashes of the patch. -/
theorem lookup_putHashes (h : Holding) (hash name : String) :
    ((((h.putMetadata aggHashName (some hash)).putMetadata hashBeforeName none).putMetadata
      hashAfterName none).metadata.lookup name) =
      if name = aggHashName then some hash
      else if name = hashBeforeName ∨ name = hashAfterName then none
      else h.metadata.lookup name := by
  simp only [Holding.lookup_putMetadata]
  by_cases hagg : name = aggHashName
  · subst hagg
    rfl
  · simp only [if_neg hagg]
    by_cases hafter : name = hashAfterName
    · rw [if_pos hafter, if_pos (.inr hafter)]
    · simp only [hafter, if_false, or_false]

theorem aggregate_spec (hs : t.Holds file h s) (hbatch : Tileset.checkBatch t.batch = .ok ()) :
    Yields (Action.query t.aggregate) s fun hash s' => hash = aggregateHash h.sorted ∧ s' = s :=
  .intro (Action.query_ok (by
    rw [hs.contents]
    exact Tileset.aggregate_container s.file hs.valid hbatch)) ⟨rfl, rfl⟩

/-- What is left to do once the records are applied. -/
def finishPatch (changes : List MetadataChange) (after : Cell) (policy : MergePolicy) (t : Tileset)
    (counters : TileCounters) : Action TileCounters := do
  let _ ← Tileset.merge policy changes
  let _ ← t.finalize
  let result ← Action.query t.aggregate
  requireHash (some result) after (.resultMismatch after (.text result))
  Tileset.putMetadata (.text aggHashName) (.text result)
  Tileset.putMetadata (.text hashBeforeName) .null
  Tileset.putMetadata (.text hashAfterName) .null
  return counters

theorem merge_decides (policy : MergePolicy) (hs : t.Holds file h s)
    {changes : List MetadataChange} (hchanges : ∀ change ∈ changes, change.IsText) :
    Decides (Tileset.merge policy changes) s
      (∃ m, ((Metadata.ofTexts h.metadata).merge policy changes).2 = .ok m) fun _ s' =>
        ∃ h', t.Holds file h' s' ∧ h'.tiles = h.tiles ∧ h'.images = h.images ∧
          ∀ m, ((Metadata.ofTexts h.metadata).merge policy changes).2 = .ok m → h'.Agrees m := by
  have hmetadata : Yields (Action.query Tileset.metadata) s fun m s' =>
      m = .ofTexts h.metadata ∧ s' = s :=
    .intro (Action.query_ok (by
      rw [hs.contents]
      exact Tileset.metadata_container s.file hs.valid)) ⟨rfl, rfl⟩
  refine hmetadata.bind_decides ?_
  rintro _ s' ⟨rfl, hs'⟩
  rw [hs']
  exact Tileset.mergeFrom_decides policy hs h.agrees_ofTexts hchanges

theorem finishPatch_decides {changes : List MetadataChange} (policy : MergePolicy)
    (hs : t.Holds file h s) (hbatch : Tileset.checkBatch t.batch = .ok ())
    (hchanges : ∀ change ∈ changes, change.IsText) (after : Cell) (counters : TileCounters) :
    Decides (finishPatch changes after policy t counters) s
      ((∃ m, ((Metadata.ofTexts h.metadata).merge policy changes).2 = .ok m) ∧
        HashIs (some (aggregateHash h.sorted)) after) fun counters' s' =>
      counters' = counters ∧ ∃ h', t.Holds file h' s' ∧ h'.tiles = h.tiles ∧
        ∀ m, ((Metadata.ofTexts h.metadata).merge policy changes).2 = .ok m →
          ∀ name, (h'.metadata.lookup name).map .text =
            if name = aggHashName then some (.text (aggregateHash h.sorted))
            else if name = hashBeforeName ∨ name = hashAfterName then none
            else m.get? (.text name) := by
  refine (merge_decides policy hs hchanges).bind ?_
  rintro - _ s₁ ⟨h₁, hs₁, htiles, -, hagrees⟩
  have hsorted : h₁.sorted = h.sorted := congrArg inOrder htiles
  refine (Tileset.finalize_spec hs₁).bind_decides fun _ s₂ hs₂ => ?_
  refine (aggregate_spec hs₂ hbatch).bind_decides ?_
  rintro _ s₃ ⟨rfl, hs₃⟩
  rw [hs₃]
  show Decides _ _ (HashIs (some (aggregateHash h.sorted)) after) _
  rw [← hsorted]
  refine (requireHash_decides _ _ _ s₂).bind_yields fun _ _ s₄ hs₄ => ?_
  rw [hs₄]
  refine (Tileset.putMetadata_spec hs₂ aggHashName (some _)).bind fun _ s₅ hs₅ => ?_
  refine (Tileset.putMetadata_spec hs₅ hashBeforeName none).bind fun _ s₆ hs₆ => ?_
  refine (Tileset.putMetadata_spec hs₆ hashAfterName none).bind fun _ s₇ hs₇ => ?_
  refine .pure ⟨rfl, _, hs₇, htiles, fun m hm name => ?_⟩
  rw [lookup_putHashes, hagrees m hm name]
  by_cases hagg : name = aggHashName
  · simp only [hagg, if_true, Option.map_some]
    rfl
  · simp only [hagg, if_false]
    split <;> rfl

/-- What is held after a patch has been applied. -/
structure Patched (h h' : Holding) (differ : Differ) (policy : MergePolicy) (delta : DeltaSet) :
    Prop where
  sorted : h'.sorted = inOrder (updateTiles differ h.sorted delta.records.items)
  metadata : ∀ m, ((Metadata.ofTexts h.metadata).merge policy delta.metadataChanges).2 = .ok m →
    ∀ name, (h'.metadata.lookup name).map .text =
      if name = aggHashName then some (.text (aggregateHash h'.sorted))
      else if name = hashBeforeName ∨ name = hashAfterName then none
      else m.get? (.text name)

/-- A patch is applied exactly if it applies to what is held, all records at once. -/
theorem DeltaSet.applyTo_decides {delta : DeltaSet} (policy : MergePolicy) (hs : t.Holds file h s)
    (hbatch : Tileset.checkBatch t.batch = .ok ()) (hP : Set.InjOn payloadHash P)
    (himages : ∀ image ∈ h.images, image ∈ P) (hrecords : delta.records.failure = none)
    (hkeys : ∀ record ∈ delta.records.items, record.key.cells.all Cell.fits = true)
    (hwritten : ∀ record ∈ delta.records.items,
      ∀ tile ∈ record.written? differ h.sorted, ∀ data ∈ tile.data, data ∈ P)
    (hchanges : ∀ change ∈ delta.metadataChanges, change.IsText) :
    Decides (delta.applyTo differ policy t) s
      (delta.Applies differ policy h.sorted (.ofTexts h.metadata)) fun counters s' =>
        counters = delta.records.items.foldl PatchRecord.counted .zero ∧
          ∃ h', t.Holds file h' s' ∧ Patched h h' differ policy delta := by
  have hall (s : Session) : Yields (Action.ofExcept delta.records.all) s fun _ s' => s' = s := by
    have hlist : delta.records.all = .ok delta.records.items := by simp only [Scan.all, hrecords]
    exact .intro (Action.ofExcept_ok hlist s) rfl
  have hwrittenHeld : ∀ record ∈ delta.records.items,
      (∀ key ∈ (none : Option TileKey), key < record.key) →
        ∀ tile ∈ record.written? differ h.tiles, ∀ data ∈ tile.data, data ∈ P := by
    intro record hrecord _
    rw [← PatchRecord.written?_congr (payloadAt_inOrder hs.valid.keys record.key)]
    exact hwritten record hrecord
  have hsorted {h₁ : Holding} {s₁ : Session} (hs₁ : t.Holds file h₁ s₁)
      (hstep : Advances P h h₁ (updateTiles differ h.tiles delta.records.items)) :
      h₁.sorted = inOrder (updateTiles differ h.sorted delta.records.items) := by
    rw [inOrder_updateTiles_sorted hs.valid.keys (hstep.tiles_eq ▸ hs₁.valid.keys),
      Holding.sorted, hstep.tiles_eq]
  rw [applies_iff hs.valid.keys]
  refine (aggregate_spec hs hbatch).bind_decides ?_
  rintro _ s₁ ⟨rfl, hs₁⟩
  rw [hs₁]
  refine (requireHash_decides _ _ _ s).bind fun _ _ s₂ hs₂ => ?_
  rw [hs₂]
  refine (applyRecords_decides hs hbatch hP himages hkeys hwrittenHeld .zero).bind ?_
  rintro - _ s₃ ⟨rfl, h₃, hs₃, hstep⟩
  refine (hall s₃).bind_decides fun _ s₄ hs₄ => ?_
  rw [hs₄, ← hstep.metadata_eq, ← hsorted hs₃ hstep]
  refine (finishPatch_decides policy hs₃ hbatch hchanges delta.after _).mono .rfl ?_
  rintro - _ s₅ ⟨rfl, h₅, hs₅, htiles, hmetadata⟩
  have hsame : h₅.sorted = h₃.sorted := congrArg inOrder htiles
  refine ⟨rfl, h₅, hs₅, hsame.trans (hsorted hs₃ hstep), fun m hm name => ?_⟩
  rw [← hstep.metadata_eq] at hm
  rw [hmetadata m hm name, hsame]

end DeltaSet

/-- Payloads among a few whose hashes differ are told apart by their hashes. -/
theorem injOn_payloadHash {P : Set Bytes} {payloads : List Bytes}
    (hknown : ∀ data ∈ P, ∃ payload ∈ payloads, data = payload)
    (hdistinct : ∀ a ∈ payloads, ∀ b ∈ payloads, payloadHash a = payloadHash b → a = b) :
    Set.InjOn payloadHash P := by
  intro a ha b hb heq
  obtain ⟨_, ha, rfl⟩ := hknown a ha
  obtain ⟨_, hb, rfl⟩ := hknown b hb
  exact hdistinct a ha b hb heq

/-- The payloads that a patch puts into tiles. -/
def DeltaSet.Writes (delta : DeltaSet) (differ : Differ) (tiles : List Tile) (data : Bytes) :
    Prop :=
  ∃ record ∈ delta.records.items, ∃ tile ∈ record.written? differ tiles, data ∈ tile.data

/-- Every tileset that the library makes shows what it holds, under whatever path name. -/
theorem Tileset.Reached.shown {t : Tileset} {s : Session} (ht : t.Reached s) :
    ∃ h, t.Holds s.file h s ∧ t.shape = t.shape.layout.shape ∧ ∀ file,
      Tileset.scan ⟨t.shape, 1⟩ .all file s.contents = .ofList h.sorted ∧
      Tileset.metadata file s.contents = .ok (.ofTexts h.metadata) := by
  obtain ⟨h, hs, hshape⟩ := ht.holds
  refine ⟨h, hs, hshape, fun file => ?_⟩
  rw [hs.contents]
  exact ⟨scan_container file (t := ⟨t.shape, 1⟩) hs.valid rfl, metadata_container file hs.valid⟩

/-- A patch is applied to a tileset of the library if and only if the tiles can be fetched at all
and the patch applies to the original tiles and metadata.  What the tileset has then are the tiles
that all records make of the original ones at once, and the merged metadata with the aggregate
hash of these tiles. -/
theorem DeltaSet.applyTo_iff {t : Tileset} {s : Session} (ht : t.Reached s) {tiles : List Tile}
    {metadata : Metadata}
    (htiles : Tileset.scan ⟨t.shape, 1⟩ .all s.file s.contents = .ofList tiles)
    (hmetadata : Tileset.metadata s.file s.contents = .ok metadata) {delta : DeltaSet}
    (differ : Differ) (policy : MergePolicy) (hrecords : delta.records.failure = none)
    (hkeys : ∀ record ∈ delta.records.items, record.key.cells.all Cell.fits = true)
    (hchanges : ∀ change ∈ delta.metadataChanges, change.IsText)
    (hhash : Set.InjOn payloadHash
      {data | data ∈ s.contents.payloads ∨ delta.Writes differ tiles data}) :
    ((∃ counters s', delta.applyTo differ policy t s = .ok counters s') ↔
      (-0x80000000 ≤ t.batch ∧ t.batch < 0x80000000) ∧ delta.Applies differ policy tiles metadata) ∧
    ∀ counters s', delta.applyTo differ policy t s = .ok counters s' →
      counters = delta.records.items.foldl PatchRecord.counted .zero ∧
      t.scan .all s'.file s'.contents =
        .ofList (inOrder (updateTiles differ tiles delta.records.items)) ∧
      ∃ merged after, (metadata.merge policy delta.metadataChanges).2 = .ok merged ∧
        Tileset.metadata s'.file s'.contents = .ok after ∧
        ∀ name, after.get? (.text name) =
          if name = aggHashName then
            some (.text (aggregateHash (inOrder (updateTiles differ tiles delta.records.items))))
          else if name = hashBeforeName ∨ name = hashAfterName then none
          else merged.get? (.text name) := by
  obtain ⟨h, hs, -, hshown⟩ := ht.shown
  obtain ⟨hscan, hread⟩ := hshown s.file
  obtain rfl : tiles = h.sorted := congrArg Scan.items (htiles.symm.trans hscan)
  obtain rfl : metadata = .ofTexts h.metadata := Except.ok.inj (hmetadata.symm.trans hread)
  cases hbatch : Tileset.checkBatch t.batch with
  | error failure =>
      have hrange : ¬ (-0x80000000 ≤ t.batch ∧ t.batch < 0x80000000) := fun hrange => by
        simp [Tileset.checkBatch, hrange] at hbatch
      have hfails : Fails (delta.applyTo differ policy t) s :=
        Fails.bind ⟨failure, s, Action.query_error (by
          rw [hs.contents]
          exact Tileset.aggregate_error s.file hs.valid hbatch)⟩
      obtain ⟨_, _, hfails⟩ := hfails
      simp [hfails, hrange]
  | ok _ =>
      have hrange : -0x80000000 ≤ t.batch ∧ t.batch < 0x80000000 := by
        by_contra hrange
        simp [Tileset.checkBatch, hrange] at hbatch
      obtain ⟨hok, hfail⟩ := DeltaSet.applyTo_decides policy hs hbatch hhash
        (fun image himage => .inl (hs.contents ▸ hs.valid.mem_payloads himage)) hrecords hkeys
        (fun record hrecord tile htile data hdata => .inr ⟨record, hrecord, tile, htile, hdata⟩)
        hchanges
      by_cases happlies : delta.Applies differ policy h.sorted (.ofTexts h.metadata)
      · obtain ⟨counters, s', hrun, hcounters, h', hs', hpatched⟩ := hok happlies
        refine ⟨iff_of_true ⟨counters, s', hrun⟩ ⟨hrange, happlies⟩, fun counters' s'' hrun' => ?_⟩
        obtain ⟨rfl, rfl⟩ := EStateM.Result.ok.inj (hrun.symm.trans hrun')
        obtain ⟨merged, hmerged⟩ := happlies.merges
        refine ⟨hcounters, ?_, merged, .ofTexts h'.metadata, hmerged, ?_, fun name => ?_⟩
        · rw [hs'.contents, Tileset.scan_container _ hs'.valid hbatch, hpatched.sorted]
        · rw [hs'.contents]
          exact Tileset.metadata_container _ hs'.valid
        · rw [Metadata.get?_ofTexts, hpatched.metadata merged hmerged name, hpatched.sorted]
      · obtain ⟨_, _, hfails⟩ := hfail happlies
        simp [hfails, happlies]

/-- A tile is changed by a delta, one is removed and one is added. -/
theorem applyTo_threeRecords :
    let tiles : List Tile := [⟨⟨0, 0, 0⟩, some ⟨#[1, 2, 3]⟩⟩, ⟨⟨1, 0, 0⟩, some ⟨#[7]⟩⟩]
    let updated : List Tile := [⟨⟨0, 0, 0⟩, some ⟨#[1, 2, 3, 4]⟩⟩, ⟨⟨1, 0, 1⟩, some ⟨#[9]⟩⟩]
    let t : Tileset := ⟨Layout.normalized.shape, 1⟩
    let s := StoreOperation.runAll t
      { Session.start "a" true .empty with contents := Layout.normalized.container .empty }
      (tiles.map fun tile => .put tile.key tile.data)
    let records : List PatchRecord := [
      .changedBy ⟨0, 0, 0⟩ ⟨#[0x41, 0x46, 0, 0, 0, 3, 0, 0, 0, 0, 4]⟩ ⟨#[1, 2, 3, 4]⟩,
      .removed ⟨1, 0, 0⟩, .full .add ⟨⟨1, 0, 1⟩, some ⟨#[9]⟩⟩]
    let delta : DeltaSet := ⟨.text (aggregateHash tiles), .text (aggregateHash updated), .delta,
      [.add (.text "name") (.text "sea")], .ofList records⟩
    t.Reached s ∧ delta.Applies .affix .strict tiles .empty ∧
      ∃ counters s', delta.applyTo .affix .strict t s = .ok counters s' ∧
        t.scan .all s'.file s'.contents = .ofList updated := by
  intro tiles updated t s records delta
  have ht : t.Reached s := (Tileset.Reached.start .normalized 1 "a").runAll _
  have hscan : Tileset.scan ⟨t.shape, 1⟩ .all s.file s.contents = .ofList tiles := by
    decide +kernel
  have hmetadata : Tileset.metadata s.file s.contents = .ok .empty := by decide +kernel
  -- four payloads take part, and their hashes differ
  let payloads : List Bytes := [⟨#[1, 2, 3]⟩, ⟨#[7]⟩, ⟨#[1, 2, 3, 4]⟩, ⟨#[9]⟩]
  have hstored : ∀ data ∈ s.contents.payloads, ∃ payload ∈ payloads, data = payload := by
    decide +kernel
  have hwritten : ∀ record ∈ records, ∀ tile ∈ record.written? .affix tiles,
      ∀ data ∈ tile.data, ∃ payload ∈ payloads, data = payload := by decide +kernel
  have hhash : Set.InjOn payloadHash
      {data | data ∈ s.contents.payloads ∨ delta.Writes .affix tiles data} := by
    refine @injOn_payloadHash _ payloads ?_ (by decide +kernel)
    rintro data (hdata | ⟨record, hrecord, tile, htile, hdata⟩)
    · exact hstored data hdata
    · exact hwritten record hrecord tile htile data hdata
  obtain ⟨hiff, hafter⟩ := DeltaSet.applyTo_iff ht hscan hmetadata .affix .strict
    (show delta.records.failure = none from rfl) (by decide)
    (fun change hchange => ⟨"name", .inr ⟨"sea", .inl (List.mem_singleton.1 hchange)⟩⟩) hhash
  have hupdated : inOrder (updateTiles .affix tiles delta.records.items) = updated := by
    decide +kernel
  have hchecks : ∀ record ∈ records, record.Checks .affix tiles := by
    simp only [records, List.forall_mem_cons, List.not_mem_nil, false_imp_iff, implies_true,
      and_true]
    exact ⟨⟨_, ⟨#[1, 2, 3, 4]⟩, rfl, rfl, _, rfl, rfl⟩, trivial, _, rfl, rfl⟩
  have happlies : delta.Applies .affix .strict tiles .empty :=
    ⟨⟨_, rfl, rfl⟩, by decide, hchecks, ⟨_, rfl⟩, hupdated ▸ ⟨_, rfl, rfl⟩⟩
  obtain ⟨counters, s', hrun⟩ := hiff.2 ⟨by decide, happlies⟩
  exact ⟨ht, happlies, counters, s', hrun, hupdated ▸ (hafter counters s' hrun).2.1⟩

/-- A number of rows to fetch that is no machine integer keeps even a patch that changes nothing
from being applied. -/
theorem not_applyTo_of_hugeBatch :
    let t : Tileset := ⟨Layout.flat.shape, 0x80000000⟩
    let s : Session :=
      { Session.start "a" true .empty with contents := Layout.flat.container .empty }
    let delta : DeltaSet :=
      ⟨.text (aggregateHash []), .text (aggregateHash []), .whole, [], .ofList []⟩
    t.Reached s ∧ Tileset.scan ⟨t.shape, 1⟩ .all s.file s.contents = .ofList [] ∧
      Tileset.metadata s.file s.contents = .ok .empty ∧
      delta.Applies .affix .strict [] .empty ∧
      ¬ ∃ counters s', delta.applyTo .affix .strict t s = .ok counters s' := by
  intro t s delta
  refine ⟨?_, rfl, rfl, ⟨⟨_, rfl, rfl⟩, .nil, by simp [delta, Scan.ofList], ⟨_, rfl⟩,
    ⟨_, rfl, rfl⟩⟩, ?_⟩
  · exact Tileset.Reached.start .flat 0x80000000 "a"
  · rintro ⟨counters, s', hrun⟩
    have hfails : delta.applyTo .affix .strict t s = .error .outOfRange s := rfl
    rw [hfails] at hrun
    cases hrun

end TileAtlas
