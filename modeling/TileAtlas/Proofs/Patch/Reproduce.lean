import TileAtlas.Proofs.Patch.Apply
import TileAtlas.Proofs.Patch.Walk

/-!
# Applying a difference

The records that tell a target from a base fit the tiles of the base, and what they make of them
are the tiles of the target, provided that a delta gives back what it was made for and that no two
different payloads have the same hash.
-/

namespace TileAtlas

variable {differ : Differ} {patchType : PatchType} {base target : List Tile}
  {records : List PatchRecord} {record : PatchRecord} {P : Set Bytes}

/-- Whether a delta method makes every delta and gives back what the delta was made for. -/
def Differ.Restores (differ : Differ) : Prop :=
  ∀ old new, ∃ delta, differ.diff old new = .ok delta ∧ differ.apply old delta = .ok new

theorem Differ.Restores.diff_ok (h : differ.Restores) (old new : Bytes) :
    ∃ delta, differ.diff old new = .ok delta := by
  obtain ⟨delta, hdelta, -⟩ := h old new
  exact ⟨delta, hdelta⟩

theorem Differ.Restores.apply_diff (h : differ.Restores) {old new delta : Bytes}
    (hdelta : differ.diff old new = .ok delta) : differ.apply old delta = .ok new := by
  obtain ⟨delta', hdelta', happly⟩ := h old new
  obtain rfl : delta = delta' := Except.ok.inj (hdelta.symm.trans hdelta')
  exact happly

theorem tileHash_inj (hP : Set.InjOn payloadHash P) {old new : Tile}
    (hold : ∀ data ∈ old.data, data ∈ P) (hnew : ∀ data ∈ new.data, data ∈ P)
    (h : tileHash old.data = tileHash new.data) : old.data = new.data := by
  cases hdata : old.data with
  | none =>
      rw [hdata] at h
      exact (Option.map_eq_none_iff.1 h.symm).symm
  | some oldData =>
      rw [hdata] at h
      obtain ⟨newData, hnewData, heq⟩ := Option.map_eq_some_iff.1 h.symm
      rw [hnewData, hP (hnew newData hnewData) (hold oldData hdata) heq]

theorem hashIs_tileHash (data : Option Bytes) :
    HashIs (tileHash data) (.ofText? (tileHash data)) := by
  cases data with
  | none => rfl
  | some bytes => exact ⟨_, rfl, rfl⟩

/-- What a record of the difference puts is the tile that the target has at its key. -/
theorem Difference.written?_iff (hdiffer : differ.Restores)
    (hbase : base.Pairwise fun a b => a.key ≠ b.key)
    (htarget : target.Pairwise fun a b => a.key ≠ b.key)
    (h : Difference differ patchType base target record) (tile : Tile) :
    record.written? differ base = some tile ↔ tile ∈ target ∧ tile.key = record.key := by
  have honly {new : Tile} (hnew : new ∈ target) (hkey : new.key = record.key)
      (hwritten : record.written? differ base = some new) :
      record.written? differ base = some tile ↔ tile ∈ target ∧ tile.key = record.key := by
    rw [hwritten, Option.some.injEq]
    constructor
    · rintro rfl
      exact ⟨hnew, hkey⟩
    · rintro ⟨htile, htileKey⟩
      exact key_inj_of_pairwise htarget hnew htile (hkey.trans htileKey.symm)
  cases h with
  | removed hold hnone =>
      refine ⟨nofun, fun ⟨htile, hkey⟩ => absurd hkey (hnone tile htile)⟩
  | added hnew hnone => exact honly hnew rfl rfl
  | @changed old new _ hold hnew hkey _ hchange =>
      refine honly hnew hchange.key_eq.symm ?_
      cases hchange with
      | full => rfl
      | @delta delta data hfor =>
          obtain ⟨-, hdata, -, oldData, holdData, hdelta⟩ := hfor
          have hpayload : payloadAt base new.key = some oldData :=
            (payloadAt_eq_some hbase).2 ⟨old, hold, hkey, holdData⟩
          simp only [PatchRecord.written?, PatchRecord.changedBy, hpayload, Option.getD_some,
            hdiffer.apply_diff hdelta, ← hdata]

/-- A record of the difference fits the base. -/
theorem Difference.checks (hdiffer : differ.Restores)
    (hbase : base.Pairwise fun a b => a.key ≠ b.key)
    (h : Difference differ patchType base target record) : record.Checks differ base := by
  cases h with
  | removed => trivial
  | @added new => exact hashIs_tileHash new.data
  | @changed old new _ hold hnew hkey _ hchange =>
      cases hchange with
      | full => exact hashIs_tileHash new.data
      | @delta delta data hfor =>
          obtain ⟨-, -, -, oldData, holdData, hdelta⟩ := hfor
          exact ⟨oldData, data, (payloadAt_eq_some hbase).2 ⟨old, hold, hkey, holdData⟩,
            hdiffer.apply_diff hdelta, _, rfl, rfl⟩

section Records

variable (hdiffer : differ.Restores) (hbase : base.Pairwise fun a b => a.key ≠ b.key)
  (htarget : target.Pairwise fun a b => a.key ≠ b.key)
  (hmem : ∀ record, record ∈ records ↔ Difference differ patchType base target record)

include hdiffer hmem

/-- A tile of the base that no record is about is a tile of the target, and the other way round. -/
theorem unrecorded_iff (hP : Set.InjOn payloadHash P)
    (hbaseP : ∀ tile ∈ base, ∀ data ∈ tile.data, data ∈ P)
    (htargetP : ∀ tile ∈ target, ∀ data ∈ tile.data, data ∈ P) {tile : Tile}
    (hnone : ∀ record ∈ records, record.key ≠ tile.key) : tile ∈ base ↔ tile ∈ target := by
  have hshared {old new : Tile} (hold : old ∈ base) (hnew : new ∈ target) (hkey : old.key = new.key)
      (htile : tile.key = new.key) : old = new := by
    by_cases hhash : tileHash old.data = tileHash new.data
    · obtain ⟨oldKey, oldData⟩ := old
      obtain ⟨newKey, newData⟩ := new
      obtain rfl : oldKey = newKey := hkey
      have hdata := tileHash_inj hP (hbaseP _ hold) (htargetP _ hnew) hhash
      exact congrArg (Tile.mk oldKey) hdata
    · obtain ⟨change, -, hchange⟩ := changeRecord_ok patchType hdiffer.diff_ok old new
      have hrecorded := (hchange change).2 rfl
      exact absurd (hrecorded.key_eq.trans htile.symm)
        (hnone change ((hmem change).2 (.changed hold hnew hkey hhash hrecorded)))
  constructor
  · intro htile
    by_cases hnew : ∃ new ∈ target, new.key = tile.key
    · obtain ⟨new, hnew, hkey⟩ := hnew
      rw [hshared htile hnew hkey.symm hkey.symm]
      exact hnew
    · have hremoved := (hmem (.removed tile.key)).2
        (.removed htile fun new hnew' hkey => hnew ⟨new, hnew', hkey⟩)
      exact absurd rfl (hnone _ hremoved)
  · intro htile
    by_cases hold : ∃ old ∈ base, old.key = tile.key
    · obtain ⟨old, hold, hkey⟩ := hold
      rw [← hshared hold htile hkey rfl]
      exact hold
    · have hadded := (hmem (.full .add tile)).2
        (.added htile fun old hold' hkey => hold ⟨old, hold', hkey⟩)
      exact absurd rfl (hnone _ hadded)

include hbase htarget

theorem mem_updateTiles_difference (hP : Set.InjOn payloadHash P)
    (hbaseP : ∀ tile ∈ base, ∀ data ∈ tile.data, data ∈ P)
    (htargetP : ∀ tile ∈ target, ∀ data ∈ tile.data, data ∈ P) (tile : Tile) :
    tile ∈ updateTiles differ base records ↔ tile ∈ target := by
  have hwritten {record : PatchRecord} (hrecord : record ∈ records) :
      record.written? differ base = some tile ↔ tile ∈ target ∧ tile.key = record.key :=
    ((hmem record).1 hrecord).written?_iff hdiffer hbase htarget tile
  rw [updateTiles, List.mem_append, List.mem_filter, decide_eq_true_iff, List.mem_filterMap]
  by_cases hkey : ∃ record ∈ records, record.key = tile.key
  · obtain ⟨record, hrecord, hkey⟩ := hkey
    constructor
    · rintro (⟨-, hnone⟩ | ⟨other, hother, heq⟩)
      · exact absurd hkey (hnone record hrecord)
      · exact ((hwritten hother).1 heq).1
    · intro htile
      exact .inr ⟨record, hrecord, (hwritten hrecord).2 ⟨htile, hkey.symm⟩⟩
  · have hnone : ∀ record ∈ records, record.key ≠ tile.key := fun record hrecord heq =>
      hkey ⟨record, hrecord, heq⟩
    rw [← unrecorded_iff hdiffer hmem hP hbaseP htargetP hnone]
    constructor
    · rintro (⟨htile, -⟩ | ⟨record, hrecord, heq⟩)
      · exact htile
      · exact absurd ((hwritten hrecord).1 heq).2.symm (hnone record hrecord)
    · exact fun htile => .inl ⟨htile, hnone⟩

end Records

theorem pairwise_updateTiles (hbase : base.Pairwise fun a b => a.key ≠ b.key)
    (hrecords : records.Pairwise fun r s => r.key < s.key) :
    (updateTiles differ base records).Pairwise fun a b => a.key ≠ b.key := by
  refine List.pairwise_append.2 ⟨hbase.filter _, List.pairwise_filterMap.2 ?_, ?_⟩
  · refine hrecords.imp fun hlt tile htile other hother => ?_
    rw [PatchRecord.key_of_written? htile, PatchRecord.key_of_written? hother]
    exact hlt.ne
  · intro tile htile other hother
    obtain ⟨record, hrecord, hwritten⟩ := List.mem_filterMap.1 hother
    rw [PatchRecord.key_of_written? hwritten]
    exact (of_decide_eq_true (List.mem_filter.1 htile).2 record hrecord).symm

/-- The difference makes the tiles of the target of those of the base. -/
theorem updateTiles_difference (hdiffer : differ.Restores) (hbase : Ascending base)
    (htarget : Ascending target) (hrecords : records.Pairwise fun r s => r.key < s.key)
    (hmem : ∀ record, record ∈ records ↔ Difference differ patchType base target record)
    (hP : Set.InjOn payloadHash P) (hbaseP : ∀ tile ∈ base, ∀ data ∈ tile.data, data ∈ P)
    (htargetP : ∀ tile ∈ target, ∀ data ∈ tile.data, data ∈ P) :
    inOrder (updateTiles differ base records) = target := by
  have hbaseKeys : base.Pairwise fun a b => a.key ≠ b.key := hbase.imp fun hlt => hlt.ne
  have htargetKeys : target.Pairwise fun a b => a.key ≠ b.key := htarget.imp fun hlt => hlt.ne
  have hkeys : (updateTiles differ base records).Pairwise fun a b => a.key ≠ b.key :=
    pairwise_updateTiles hbaseKeys hrecords
  have hnodup {tiles : List Tile} (h : tiles.Pairwise fun a b => a.key ≠ b.key) : tiles.Nodup :=
    h.imp fun hne heq => hne (congrArg Tile.key heq)
  have hperm : (updateTiles differ base records).Perm target :=
    (List.perm_ext_iff_of_nodup (hnodup hkeys) (hnodup htargetKeys)).2
      (mem_updateTiles_difference hdiffer hbaseKeys htargetKeys hmem hP hbaseP htargetP)
  exact eq_of_perm_of_pairwise_lt Tile.key ((sortBy_perm _ _).trans hperm)
    (ascending_inOrder hkeys) htarget

end TileAtlas
