import TileAtlas.Patch.Diff
import TileAtlas.Proofs.Tile.Order

/-!
# Walking two streams of tiles

The records that the walk gives are exactly the differences of the two streams.  `Difference` says
what those are without any walk: it looks at one key at a time.  The walk comes to its end if and
only if both streams ascend, and its records ascend as well.
-/

namespace TileAtlas

/-- Whether a delta can stand for a change: it is asked for, both tiles have payloads and the delta
is smaller than the new one. -/
def DeltaFor (differ : Differ) (patchType : PatchType) (old new : Tile) (delta data : Bytes) :
    Prop :=
  patchType = .delta ∧ new.data = some data ∧ delta.size < data.size ∧
    ∃ oldData, old.data = some oldData ∧ differ.diff oldData data = .ok delta

/-- The record of a change from one tile to another under the same key. -/
inductive Change (differ : Differ) (patchType : PatchType) (old new : Tile) : PatchRecord → Prop
  | delta {delta data : Bytes} : DeltaFor differ patchType old new delta data →
      Change differ patchType old new (.changedBy new.key delta data)
  | full : (∀ delta data, ¬ DeltaFor differ patchType old new delta data) →
      Change differ patchType old new (.full .change new)

/-- The records that tell a target from a base: what only the base has is removed, what only the
target has is added, and what both have is changed if the tile hashes differ. -/
inductive Difference (differ : Differ) (patchType : PatchType) (base target : List Tile) :
    PatchRecord → Prop
  | removed {old : Tile} : old ∈ base → (∀ new ∈ target, new.key ≠ old.key) →
      Difference differ patchType base target (.removed old.key)
  | added {new : Tile} : new ∈ target → (∀ old ∈ base, old.key ≠ new.key) →
      Difference differ patchType base target (.full .add new)
  | changed {old new : Tile} {record : PatchRecord} : old ∈ base → new ∈ target →
      old.key = new.key → tileHash old.data ≠ tileHash new.data →
      Change differ patchType old new record → Difference differ patchType base target record

namespace Scan

theorem ascendingFrom_of_lt {label : String} {failure : Option Failure}
    {previous : Option TileKey} {tiles : List Tile}
    (hprevious : ∀ key ∈ previous, ∀ tile ∈ tiles, key < tile.key) (h : Ascending tiles) :
    ascendingFrom label failure previous tiles = ⟨tiles, failure⟩ := by
  induction tiles generalizing previous with
  | nil => cases previous <;> rfl
  | cons tile rest ih =>
      obtain ⟨hfirst, hrest⟩ := List.pairwise_cons.1 h
      have hnext : ascendingFrom label failure (some tile.key) rest = ⟨rest, failure⟩ :=
        ih (by simpa using hfirst) hrest
      cases previous with
      | none => simp only [ascendingFrom, hnext, cons]
      | some key =>
          have hkey : key < tile.key := hprevious key rfl tile (by simp)
          simp only [ascendingFrom, if_pos hkey, hnext, cons]

/-- Whether a failure names two keys of a stream, the second one first, that are out of order. -/
def Misplaced (tiles : List Tile) (failure : Failure) : Prop :=
  ∃ label, ∃ tile ∈ tiles, ∃ after ∈ tiles, ¬ after.key < tile.key ∧
    failure = orderFailure label tile.key after.key

theorem Misplaced.mono {tiles more : List Tile} {failure : Failure} (h : Misplaced tiles failure)
    (hmore : tiles ⊆ more) : Misplaced more failure := by
  obtain ⟨label, tile, htile, after, hafter, hkeys⟩ := h
  exact ⟨label, tile, hmore htile, after, hmore hafter, hkeys⟩

/-- Where the keys of a stream can be put into a message, the failure is one of a container. -/
theorem Misplaced.writable {tiles : List Tile} {failure : Failure} (h : Misplaced tiles failure)
    (htiles : ∀ tile ∈ tiles, tile.key.isWritable) :
    ∃ label key after, failure = .io (.order label key after) := by
  obtain ⟨label, tile, htile, after, hafter, -, hfailure⟩ := h
  refine ⟨label, tile.key, after.key, ?_⟩
  rw [hfailure, orderFailure, htiles _ htile, htiles _ hafter]
  rfl

theorem failure_ascendingFrom {label : String} {previous : Option Tile} {tiles : List Tile}
    (h : ¬ Ascending tiles ∨ ∃ old ∈ previous, ∃ tile ∈ tiles, ¬ old.key < tile.key) :
    ∃ failure, (ascendingFrom label none (previous.map (·.key)) tiles).failure = some failure ∧
      Misplaced (previous.toList ++ tiles) failure := by
  induction tiles generalizing previous with
  | nil => simp [Ascending] at h
  | cons tile rest ih =>
      have hnext : (∀ old ∈ previous, old.key < tile.key) →
          ¬ Ascending rest ∨ ∃ old ∈ some tile, ∃ next ∈ rest, ¬ old.key < next.key := by
        intro hprevious
        by_contra! hcontra
        obtain ⟨hrest, hfirst⟩ := hcontra
        have hall : ∀ next ∈ rest, tile.key < next.key := by simpa using hfirst
        rcases h with h | ⟨old, hold, next, hmem, hlt⟩
        · exact h (List.pairwise_cons.2 ⟨hall, hrest⟩)
        · have hle := hprevious old hold
          rcases List.mem_cons.1 hmem with rfl | hmem
          · exact hlt hle
          · exact hlt (hle.trans (hall next hmem))
      cases previous with
      | none =>
          obtain ⟨failure, hfailure, hkeys⟩ := ih (hnext (by simp))
          exact ⟨failure, (failure_cons ..).trans hfailure, hkeys⟩
      | some old =>
          by_cases hkey : old.key < tile.key
          · obtain ⟨failure, hfailure, hkeys⟩ := ih (hnext (by simpa))
            refine ⟨failure, ?_, hkeys.mono (List.subset_cons_self ..)⟩
            simp only [Option.map_some, ascendingFrom, if_pos hkey]
            exact (failure_cons ..).trans hfailure
          · refine ⟨orderFailure label tile.key old.key, ?_, label, tile, ?_, old, ?_, hkey, rfl⟩
            · simp only [Option.map_some, ascendingFrom, if_neg hkey, fail]
            · simp
            · simp

/-- A stream whose keys ascend is passed on as it is, with the failure that it ends with. -/
theorem ascending_eq_self {label : String} {s : Scan Tile} (h : Ascending s.items) :
    s.ascending label = s :=
  ascendingFrom_of_lt (by simp) h

theorem ascending_ofList {label : String} {tiles : List Tile} (h : Ascending tiles) :
    (ofList tiles).ascending label = ofList tiles :=
  ascending_eq_self h

/-- A stream whose keys do not ascend fails, and it fails in no other way. -/
theorem failure_ascending (label : String) (tiles : List Tile) :
    let failure := ((ofList tiles).ascending label).failure
    (failure = none ↔ Ascending tiles) ∧ ∀ why ∈ failure, Misplaced tiles why := by
  by_cases htiles : Ascending tiles
  · rw [ascending_ofList htiles]
    exact ⟨iff_of_true rfl htiles, nofun⟩
  · have hout : ¬ Ascending tiles ∨
        ∃ old ∈ (none : Option Tile), ∃ next ∈ tiles, ¬ old.key < next.key := .inl htiles
    obtain ⟨why, hwhy, hkeys⟩ : ∃ why, ((ofList tiles).ascending label).failure = some why ∧
        Misplaced tiles why := failure_ascendingFrom hout
    simp only [hwhy, htiles, reduceCtorEq, true_and]
    intro _ h
    exact Option.some.inj h ▸ hkeys

end Scan

section Walk

variable {differ : Differ} {patchType : PatchType}

theorem DeltaFor.data_eq {old new : Tile} {delta delta' oldData newData data : Bytes}
    (h : DeltaFor differ patchType old new delta' data) (hold : old.data = some oldData)
    (hnew : new.data = some newData) (hdelta : differ.diff oldData newData = .ok delta) :
    delta' = delta ∧ data = newData ∧ delta.size < newData.size := by
  obtain ⟨-, hnew', hsize, oldData', hold', hdelta'⟩ := h
  obtain rfl : newData = data := Option.some.inj (hnew.symm.trans hnew')
  obtain rfl : oldData = oldData' := Option.some.inj (hold.symm.trans hold')
  obtain rfl : delta = delta' := Except.ok.inj (hdelta.symm.trans hdelta')
  exact ⟨rfl, rfl, hsize⟩

/-- A delta method that makes every delta gives a record for every change. -/
theorem changeRecord_ok (patchType : PatchType)
    (hdiff : ∀ old new, ∃ delta, differ.diff old new = .ok delta) (old new : Tile) :
    ∃ record, changeRecord differ patchType old new = .ok record ∧
      ∀ other, Change differ patchType old new other ↔ other = record := by
  have hfull : (∀ delta data, ¬ DeltaFor differ patchType old new delta data) →
      ∀ other, Change differ patchType old new other ↔ other = .full .change new := by
    intro hnone other
    constructor
    · rintro (hfor | _)
      · exact absurd hfor (hnone _ _)
      · rfl
    · rintro rfl
      exact .full hnone
  cases patchType with
  | whole => exact ⟨_, rfl, hfull (by simp [DeltaFor])⟩
  | delta =>
      cases hold : old.data with
      | none => exact ⟨_, by simp only [changeRecord, hold], hfull (by simp [DeltaFor, hold])⟩
      | some oldData =>
          cases hnew : new.data with
          | none =>
              exact ⟨_, by simp only [changeRecord, hold, hnew], hfull (by simp [DeltaFor, hnew])⟩
          | some newData =>
              obtain ⟨delta, hdelta⟩ := hdiff oldData newData
              by_cases hsize : delta.size < newData.size
              · refine ⟨.changedBy new.key delta newData,
                  by simp only [changeRecord, hold, hnew, hdelta, if_pos hsize], fun other => ?_⟩
                have hfor : DeltaFor differ .delta old new delta newData :=
                  ⟨rfl, hnew, hsize, oldData, hold, hdelta⟩
                constructor
                · rintro (hother | hnone)
                  · obtain ⟨rfl, rfl, -⟩ := hother.data_eq hold hnew hdelta
                    rfl
                  · exact absurd hfor (hnone _ _)
                · rintro rfl
                  exact .delta hfor
              · exact ⟨.full .change new,
                  by simp only [changeRecord, hold, hnew, hdelta, if_neg hsize],
                  hfull fun delta' data h => hsize (h.data_eq hold hnew hdelta).2.2⟩

theorem Change.key_eq {old new : Tile} {record : PatchRecord}
    (h : Change differ patchType old new record) : record.key = new.key := by
  cases h <;> rfl

namespace Difference

variable {base target : List Tile} {old new : Tile} {record : PatchRecord}

theorem key_mem (h : Difference differ patchType base target record) :
    ∃ tile ∈ base ++ target, record.key = tile.key := by
  cases h with
  | removed hold _ => exact ⟨_, List.mem_append_left _ hold, rfl⟩
  | added hnew _ => exact ⟨_, List.mem_append_right _ hnew, rfl⟩
  | changed _ hnew _ _ hchange => exact ⟨_, List.mem_append_right _ hnew, hchange.key_eq⟩

/-- A tile of the base whose key the target does not have is removed. -/
theorem cons_base_iff (htarget : ∀ new ∈ target, new.key ≠ old.key) :
    Difference differ patchType (old :: base) target record ↔
      record = .removed old.key ∨ Difference differ patchType base target record := by
  constructor
  · rintro (⟨hold, hnone⟩ | ⟨hnew, hnone⟩ | ⟨hold, hnew, hkey, hhash, hchange⟩)
    · rcases List.mem_cons.1 hold with rfl | hold
      · exact .inl rfl
      · exact .inr (.removed hold hnone)
    · exact .inr (.added hnew fun o ho => hnone o (List.mem_cons_of_mem _ ho))
    · rcases List.mem_cons.1 hold with rfl | hold
      · exact absurd hkey.symm (htarget _ hnew)
      · exact .inr (.changed hold hnew hkey hhash hchange)
  · rintro (rfl | ⟨hold, hnone⟩ | ⟨hnew, hnone⟩ | ⟨hold, hnew, hkey, hhash, hchange⟩)
    · exact .removed (List.mem_cons_self ..) htarget
    · exact .removed (List.mem_cons_of_mem _ hold) hnone
    · refine .added hnew fun o ho => ?_
      rcases List.mem_cons.1 ho with rfl | ho
      · exact (htarget _ hnew).symm
      · exact hnone o ho
    · exact .changed (List.mem_cons_of_mem _ hold) hnew hkey hhash hchange

/-- A tile of the target whose key the base does not have is added. -/
theorem cons_target_iff (hbase : ∀ old ∈ base, old.key ≠ new.key) :
    Difference differ patchType base (new :: target) record ↔
      record = .full .add new ∨ Difference differ patchType base target record := by
  constructor
  · rintro (⟨hold, hnone⟩ | ⟨hnew, hnone⟩ | ⟨hold, hnew, hkey, hhash, hchange⟩)
    · exact .inr (.removed hold fun n hn => hnone n (List.mem_cons_of_mem _ hn))
    · rcases List.mem_cons.1 hnew with rfl | hnew
      · exact .inl rfl
      · exact .inr (.added hnew hnone)
    · rcases List.mem_cons.1 hnew with rfl | hnew
      · exact absurd hkey (hbase _ hold)
      · exact .inr (.changed hold hnew hkey hhash hchange)
  · rintro (rfl | ⟨hold, hnone⟩ | ⟨hnew, hnone⟩ | ⟨hold, hnew, hkey, hhash, hchange⟩)
    · exact .added (List.mem_cons_self ..) hbase
    · refine .removed hold fun n hn => ?_
      rcases List.mem_cons.1 hn with rfl | hn
      · exact (hbase _ hold).symm
      · exact hnone n hn
    · exact .added (List.mem_cons_of_mem _ hnew) hnone
    · exact .changed hold (List.mem_cons_of_mem _ hnew) hkey hhash hchange

/-- Two tiles of one key make a change if their hashes differ, and nothing otherwise. -/
theorem cons_cons_iff (hkey : old.key = new.key) (hbase : ∀ o ∈ base, o.key ≠ old.key)
    (htarget : ∀ n ∈ target, n.key ≠ old.key) :
    Difference differ patchType (old :: base) (new :: target) record ↔
      (tileHash old.data ≠ tileHash new.data ∧ Change differ patchType old new record) ∨
        Difference differ patchType base target record := by
  constructor
  · rintro (⟨hold, hnone⟩ | ⟨hnew, hnone⟩ | ⟨hold, hnew, heq, hhash, hchange⟩)
    · rcases List.mem_cons.1 hold with rfl | hold
      · exact absurd hkey.symm (hnone _ (List.mem_cons_self ..))
      · exact .inr (.removed hold fun n hn => hnone n (List.mem_cons_of_mem _ hn))
    · rcases List.mem_cons.1 hnew with rfl | hnew
      · exact absurd hkey (hnone _ (List.mem_cons_self ..))
      · exact .inr (.added hnew fun o ho => hnone o (List.mem_cons_of_mem _ ho))
    · rcases List.mem_cons.1 hold with rfl | hold <;> rcases List.mem_cons.1 hnew with rfl | hnew
      · exact .inl ⟨hhash, hchange⟩
      · exact absurd heq.symm (htarget _ hnew)
      · exact absurd (heq.trans hkey.symm) (hbase _ hold)
      · exact .inr (.changed hold hnew heq hhash hchange)
  · rintro (⟨hhash, hchange⟩ | ⟨hold, hnone⟩ | ⟨hnew, hnone⟩ | ⟨hold, hnew, heq, hhash, hchange⟩)
    · exact .changed (List.mem_cons_self ..) (List.mem_cons_self ..) hkey hhash hchange
    · refine .removed (List.mem_cons_of_mem _ hold) fun n hn => ?_
      rcases List.mem_cons.1 hn with rfl | hn
      · exact fun h => hbase _ hold (h.symm.trans hkey.symm)
      · exact hnone n hn
    · refine .added (List.mem_cons_of_mem _ hnew) fun o ho => ?_
      rcases List.mem_cons.1 ho with rfl | ho
      · exact fun h => htarget _ hnew h.symm
      · exact hnone o ho
    · exact .changed (List.mem_cons_of_mem _ hold) (List.mem_cons_of_mem _ hnew) heq hhash hchange

end Difference

theorem failure_additions (baseFailure targetFailure : Option Failure) (target : List Tile) :
    (additions baseFailure targetFailure target).failure = (baseFailure <|> targetFailure) := by
  cases baseFailure with
  | none =>
      induction target with
      | nil => rfl
      | cons new news ih => exact ih
  | some failure => cases target <;> rfl

/-- A walk fails only as its streams do, and it does not miss a failure of either. -/
theorem failure_walkRecords (patchType : PatchType)
    (hdiff : ∀ old new, ∃ delta, differ.diff old new = .ok delta)
    (baseFailure targetFailure : Option Failure) (base target : List Tile) :
    let failure := (walkRecords differ patchType baseFailure targetFailure base target).failure
    (failure = none ↔ baseFailure = none ∧ targetFailure = none) ∧
      (failure = none ∨ failure = baseFailure ∨ failure = targetFailure) := by
  induction base generalizing target with
  | nil =>
      simp only [walkRecords, failure_additions]
      cases baseFailure <;> simp
  | cons old olds ihBase =>
      induction target with
      | nil =>
          cases targetFailure with
          | none => exact ihBase []
          | some failure => simp [walkRecords, recordsFrom, Scan.fail]
      | cons new news ihTarget =>
          simp only [walkRecords, recordsFrom]
          split
          · exact ihBase (new :: news)
          split
          · exact ihTarget
          split
          · exact ihBase news
          · obtain ⟨record, hrecord, -⟩ := changeRecord_ok patchType hdiff old new
            rw [hrecord]
            exact ihBase news

theorem pairwise_key_cons {record : PatchRecord} {base target : List Tile}
    {records : List PatchRecord}
    (hmem : ∀ r, r ∈ records ↔ Difference differ patchType base target r)
    (hrecords : records.Pairwise fun r s => r.key < s.key)
    (hbase : ∀ old ∈ base, record.key < old.key) (htarget : ∀ new ∈ target, record.key < new.key) :
    (record :: records).Pairwise fun r s => r.key < s.key := by
  refine List.pairwise_cons.2 ⟨fun r hr => ?_, hrecords⟩
  obtain ⟨tile, htile, hkey⟩ := ((hmem r).1 hr).key_mem
  rw [hkey]
  rcases List.mem_append.1 htile with htile | htile
  · exact hbase tile htile
  · exact htarget tile htile

/-- The walk of two ascending lists gives their differences in ascending order. -/
theorem walkRecords_spec (patchType : PatchType)
    (hdiff : ∀ old new, ∃ delta, differ.diff old new = .ok delta) {base target : List Tile}
    (hbase : Ascending base) (htarget : Ascending target) :
    let records := (walkRecords differ patchType none none base target).items
    (∀ record, record ∈ records ↔ Difference differ patchType base target record) ∧
      records.Pairwise fun r s => r.key < s.key := by
  induction base generalizing target with
  | nil =>
      induction target with
      | nil =>
          refine ⟨fun record => ⟨by simp [walkRecords, additions], ?_⟩, .nil⟩
          rintro (⟨h, -⟩ | ⟨h, -⟩ | ⟨h, -⟩) <;> simp at h
      | cons new news ih =>
          obtain ⟨hfirst, hrest⟩ := List.pairwise_cons.1 htarget
          obtain ⟨hmem, hrecords⟩ := ih hrest
          refine ⟨fun record => ?_, pairwise_key_cons hmem hrecords (by simp) hfirst⟩
          rw [Difference.cons_target_iff (by simp), ← hmem]
          exact List.mem_cons
  | cons old olds ihBase =>
      obtain ⟨hfirst, hrest⟩ := List.pairwise_cons.1 hbase
      induction target with
      | nil =>
          obtain ⟨hmem, hrecords⟩ := ihBase hrest .nil
          refine ⟨fun record => ?_, pairwise_key_cons hmem hrecords hfirst (by simp)⟩
          rw [Difference.cons_base_iff (by simp), ← hmem]
          exact List.mem_cons
      | cons new news ihTarget =>
          obtain ⟨hnewFirst, hnewRest⟩ := List.pairwise_cons.1 htarget
          simp only [walkRecords, recordsFrom]
          split
          next hlt =>
            -- only the base has the key of `old`
            have habove : ∀ n ∈ new :: news, old.key < n.key := by
              intro n hn
              rcases List.mem_cons.1 hn with rfl | hn
              · exact hlt
              · exact hlt.trans (hnewFirst n hn)
            obtain ⟨hmem, hrecords⟩ := ihBase hrest htarget
            refine ⟨fun record => ?_, pairwise_key_cons hmem hrecords hfirst habove⟩
            rw [Difference.cons_base_iff fun n hn => (habove n hn).ne', ← hmem]
            exact List.mem_cons
          split
          next hlt =>
            -- only the target has the key of `new`
            have habove : ∀ o ∈ old :: olds, new.key < o.key := by
              intro o ho
              rcases List.mem_cons.1 ho with rfl | ho
              · exact hlt
              · exact hlt.trans (hfirst o ho)
            obtain ⟨hmem, hrecords⟩ := ihTarget hnewRest
            refine ⟨fun record => ?_, pairwise_key_cons hmem hrecords habove hnewFirst⟩
            rw [Difference.cons_target_iff fun o ho => (habove o ho).ne', ← hmem]
            exact List.mem_cons
          next hle hge =>
            have hkey : old.key = new.key := le_antisymm (not_lt.1 hge) (not_lt.1 hle)
            obtain ⟨hmem, hrecords⟩ := ihBase hrest hnewRest
            have hstep (record : PatchRecord) :
                Difference differ patchType (old :: olds) (new :: news) record ↔
                  (tileHash old.data ≠ tileHash new.data ∧ Change differ patchType old new record) ∨
                    Difference differ patchType olds news record :=
              Difference.cons_cons_iff hkey (fun o ho => (hfirst o ho).ne')
                (fun n hn => hkey ▸ (hnewFirst n hn).ne')
            split
            next hhash =>
              refine ⟨fun record => ?_, hrecords⟩
              rw [hstep, ← hmem]
              simp [hhash]
            next hhash =>
              obtain ⟨change, hchange, hunique⟩ :=
                changeRecord_ok patchType hdiff old new
              have hchangeKey : change.key = new.key := ((hunique change).2 rfl).key_eq
              simp only [hchange]
              refine ⟨fun record => ?_, pairwise_key_cons hmem hrecords ?_ ?_⟩
              · rw [hstep, ← hmem, hunique]
                simp [hhash, Scan.cons]
              · exact fun o ho => by rw [hchangeKey, ← hkey]; exact hfirst o ho
              · exact fun n hn => by rw [hchangeKey]; exact hnewFirst n hn

end Walk

theorem Difference.change_of_key_eq {differ : Differ} {patchType : PatchType}
    {base target : List Tile} (hbase : Ascending base) (htarget : Ascending target)
    {old new : Tile} (hold : old ∈ base) (hnew : new ∈ target) (hkey : old.key = new.key)
    {record : PatchRecord} (h : Difference differ patchType base target record)
    (hrecord : record.key = old.key) :
    tileHash old.data ≠ tileHash new.data ∧ Change differ patchType old new record := by
  cases h with
  | removed _ hnone => exact absurd (hkey.symm.trans hrecord.symm) (hnone new hnew)
  | added _ hnone => exact absurd hrecord.symm (hnone old hold)
  | changed hold' hnew' heq hhash hchange =>
      obtain rfl := htarget.key_inj hnew' hnew (hchange.key_eq.symm.trans (hrecord.trans hkey))
      obtain rfl := hbase.key_inj hold' hold (heq.trans hkey.symm)
      exact ⟨hhash, hchange⟩

theorem diffRecords_of_ascending {differ : Differ} {patchType : PatchType}
    {base target : List Tile} (hbase : Ascending base) (htarget : Ascending target) :
    diffRecords differ patchType (.ofList base) (.ofList target) =
      walkRecords differ patchType none none base target := by
  simp only [diffRecords, Scan.ascending_ofList hbase, Scan.ascending_ofList htarget]
  rfl

/-- The walk of two streams of tiles ends without failure if and only if both ascend.  Otherwise it
fails at two keys that are out of order, as a container fails if both can be put into a message.
Without failure its records ascend and are the differences of the streams; a key of both has a
record if and only if the tile hashes differ. -/
theorem diffRecords_spec {differ : Differ} (patchType : PatchType)
    (hdiff : ∀ old new, ∃ delta, differ.diff old new = .ok delta) (base target : List Tile) :
    let scan := diffRecords differ patchType (.ofList base) (.ofList target)
    (scan.failure = none ↔ Ascending base ∧ Ascending target) ∧
      (∀ failure ∈ scan.failure, ∃ label, ∃ tile ∈ base ++ target, ∃ after ∈ base ++ target,
        ¬ after.key < tile.key ∧
          failure = if tile.key.isWritable ∧ after.key.isWritable then
            .io (.order label tile.key after.key) else .invalid .tooManyDigits) ∧
      ((∀ tile ∈ base ++ target, tile.key.isWritable) → ∀ failure ∈ scan.failure,
        ∃ label key after, failure = .io (.order label key after)) ∧
      (scan.failure = none →
        (scan.items.Pairwise fun r s => r.key < s.key) ∧
          (∀ record, record ∈ scan.items ↔ Difference differ patchType base target record) ∧
          ∀ old ∈ base, ∀ new ∈ target, old.key = new.key →
            if tileHash old.data = tileHash new.data then
              ∀ record ∈ scan.items, record.key ≠ old.key
            else
              ∃ record ∈ scan.items, record.key = old.key ∧
                Change differ patchType old new record) := by
  intro scan
  obtain ⟨hnone, hsome⟩ := failure_walkRecords patchType hdiff
    ((Scan.ofList base).ascending "base").failure ((Scan.ofList target).ascending "target").failure
    ((Scan.ofList base).ascending "base").items ((Scan.ofList target).ascending "target").items
  have hiff : scan.failure = none ↔ Ascending base ∧ Ascending target := by
    rw [← (Scan.failure_ascending "base" base).1, ← (Scan.failure_ascending "target" target).1]
    exact hnone
  have hmisplaced : ∀ failure ∈ scan.failure, Scan.Misplaced (base ++ target) failure := by
    intro failure hfailure
    rcases hsome with h | h | h <;> rw [show scan.failure = _ from h] at hfailure
    · cases hfailure
    · exact ((Scan.failure_ascending "base" base).2 failure hfailure).mono
        (List.subset_append_left ..)
    · exact ((Scan.failure_ascending "target" target).2 failure hfailure).mono
        (List.subset_append_right ..)
  refine ⟨hiff, fun failure hfailure => ?_, fun hwritable failure hfailure =>
    (hmisplaced failure hfailure).writable hwritable, fun hend => ?_⟩
  · simpa only [Scan.Misplaced, Scan.orderFailure, Bool.and_eq_true] using
      hmisplaced failure hfailure
  · obtain ⟨hbase, htarget⟩ := hiff.1 hend
    have hscan : scan = walkRecords differ patchType none none base target :=
      diffRecords_of_ascending hbase htarget
    obtain ⟨hmem, hrecords⟩ := walkRecords_spec patchType hdiff hbase htarget
    rw [← hscan] at hmem hrecords
    refine ⟨hrecords, hmem, fun old hold new hnew hkey => ?_⟩
    split
    next hhash =>
      intro record hrecord hrecordKey
      exact (((hmem record).1 hrecord).change_of_key_eq hbase htarget hold hnew hkey
        hrecordKey).1 hhash
    next hhash =>
      obtain ⟨change, -, hchange⟩ := changeRecord_ok patchType hdiff old new
      have hchange := (hchange change).2 rfl
      exact ⟨change, (hmem change).2 (.changed hold hnew hkey hhash hchange),
        hchange.key_eq.trans hkey.symm, hchange⟩

/-- One tile is removed, one loses its payload, one stays and one is added; the same tiles in
another order are refused. -/
theorem diffRecords_affix :
    let base : List Tile := [⟨⟨0, 0, 0⟩, none⟩, ⟨⟨1, 0, 0⟩, some ⟨#[7]⟩⟩, ⟨⟨2, 0, 0⟩, none⟩]
    let target : List Tile := [⟨⟨1, 0, 0⟩, none⟩, ⟨⟨2, 0, 0⟩, none⟩, ⟨⟨3, 0, 0⟩, none⟩]
    let scan := diffRecords .affix .delta (.ofList base) (.ofList target)
    (∀ old new, ∃ delta, Differ.affix.diff old new = .ok delta) ∧ scan.failure = none ∧
      PatchRecord.removed ⟨0, 0, 0⟩ ∈ scan.items ∧
      PatchRecord.full .change ⟨⟨1, 0, 0⟩, none⟩ ∈ scan.items ∧
      PatchRecord.full .add ⟨⟨3, 0, 0⟩, none⟩ ∈ scan.items ∧
      (∀ record ∈ scan.items, record.key ≠ ⟨2, 0, 0⟩) ∧
      (diffRecords .affix .delta (.ofList base) (.ofList target.reverse)).failure ≠ none := by
  intro base target scan
  have hdiff : ∀ old new, ∃ delta, Differ.affix.diff old new = .ok delta := fun _ _ => ⟨_, rfl⟩
  obtain ⟨hend, -, -, hrecords⟩ := diffRecords_spec .delta hdiff base target
  obtain ⟨hreversed, -⟩ := diffRecords_spec .delta hdiff base target.reverse
  have hnone : scan.failure = none := hend.2 (by decide)
  obtain ⟨-, hmem, hshared⟩ := hrecords hnone
  refine ⟨hdiff, hnone, (hmem _).2 ?_, (hmem _).2 ?_, (hmem _).2 ?_, ?_, ?_⟩
  · exact .removed (show ⟨⟨0, 0, 0⟩, none⟩ ∈ base by simp [base]) (by simp [target])
  · have hold : ⟨⟨1, 0, 0⟩, some ⟨#[7]⟩⟩ ∈ base := by simp [base]
    have hnew : ⟨⟨1, 0, 0⟩, none⟩ ∈ target := by simp [target]
    exact .changed hold hnew rfl (by simp [tileHash]) (.full (by simp [DeltaFor]))
  · exact .added (show ⟨⟨3, 0, 0⟩, none⟩ ∈ target by simp [target]) (by simp [base])
  · simpa using hshared ⟨⟨2, 0, 0⟩, none⟩ (by simp [base]) ⟨⟨2, 0, 0⟩, none⟩ (by simp [target]) rfl
  · exact fun h => absurd (hreversed.1 h).2 (by decide)

/-- Two tiles of one key that has too many digits for a message are refused in another way than two
tiles that are out of order. -/
theorem not_diffRecords_spec :
    ¬ ∀ base target : List Tile,
      let scan := diffRecords .affix .delta (.ofList base) (.ofList target)
      scan.failure = none ∨
        ∃ label key after, scan.failure = some (.io (.order label key after)) := by
  intro h
  let tile : Tile := ⟨⟨0, tenTo TileKey.longestNumber, 0⟩, none⟩
  have hlong : tile.key.isWritable = false := by
    simp [TileKey.isWritable, tile]
  have hfailure : (diffRecords .affix .delta (.ofList [tile, tile]) (.ofList [])).failure =
      some (.invalid .tooManyDigits) := by
    simp [diffRecords, Scan.ascending, Scan.ofList, Scan.ascendingFrom, Scan.orderFailure, hlong,
      Scan.cons, Scan.fail, walkRecords, recordsFrom, additions]
  rcases h [tile, tile] [] with hnone | ⟨label, key, after, horder⟩
  · simp [hfailure] at hnone
  · simp [hfailure, Failure.io] at horder

end TileAtlas
