import TileAtlas.Proofs.Tileset.Twins

/-!
# Applying a patch to twins

A patch from anywhere, whether its records are in order and fit the tiles or not, is applied to two
tilesets that hold the same in step.  The records before a record have touched other keys only, so
the payloads that it needs and puts are told by the original tiles.
-/

namespace TileAtlas

open TileAtlas.Action Tileset

variable {t : Tileset} {P : Set Bytes} {file file' : String} {rows : List Row} {tiles : List Tile}
  {s s' : Session} {differ : Differ} {record : PatchRecord}

theorem requireHash_inStep (hs : t.Twins P file file' rows tiles s s') (computed : Option String)
    (recorded : Cell) (fault : Fault) :
    InStep file file' (requireHash computed recorded fault) (requireHash computed recorded fault)
      s s' (fun _ _ u u' => t.Twins P file file' rows tiles u u') Session.SameReport := by
  refine (ofExcept_inStep _ hs.report).bind ?_
  rintro same _ _ _ ⟨-, rfl, rfl, rfl⟩
  cases same with
  | true => exact .pure hs
  | false => exact .throw _ hs.report

/-- A record is applied in step if the payload that it puts is one of those that the hashes tell
apart. -/
theorem PatchRecord.applyTo_inStep (hs : t.Twins P file file' rows tiles s s')
    (hbatch : checkBatch t.batch = .ok ()) (hP : Set.InjOn payloadHash P)
    (hwritten : ∀ tile ∈ record.written? differ tiles, ∀ data ∈ tile.data, data ∈ P)
    (counters : TileCounters) :
    InStep file file' (record.applyTo differ t counters) (record.applyTo differ t counters) s s'
      (fun after after' u u' => after = after' ∧
        t.Twins P file file' rows (stepTiles differ tiles record) u u') Session.SameReport := by
  cases hencoding : record.encoding with
  | absent =>
      simp only [stepTiles, written?, applyTo, hencoding, Option.toList_none, List.append_nil]
      exact (delete_inStep hs record.key).bind fun _ _ _ _ hs' => .pure ⟨rfl, hs'⟩
  | full =>
      simp only [stepTiles, written?, applyTo, hencoding] at hwritten ⊢
      refine (requireHash_inStep hs _ _ _).bind fun _ _ _ _ hs' => ?_
      exact (put_inStep hs' hbatch hP record.key (hwritten _ rfl)).bind fun _ _ _ _ hs' =>
        .pure ⟨rfl, hs'⟩
  | delta =>
      simp only [stepTiles, written?, applyTo, hencoding] at hwritten ⊢
      refine (entry_inStep hs record.key).bind ?_
      rintro found found' s₁ s₁' ⟨⟨hfound, hfound'⟩, hs₁⟩
      rw [hfound, hfound']
      cases hold : payloadAt tiles record.key with
      | none => exact .throw _ hs₁.report
      | some old =>
          refine (ofExcept_inStep _ hs₁.report).bind ?_
          rintro new _ _ _ ⟨hnew, rfl, rfl, rfl⟩
          simp only [hold, patched_eq_ok.1 hnew] at hwritten ⊢
          refine (requireHash_inStep hs₁ _ _ _).bind fun _ _ _ _ hs' => ?_
          exact (put_inStep hs' hbatch hP record.key (hwritten _ rfl)).bind fun _ _ _ _ hs' =>
            .pure ⟨rfl, hs'⟩

/-- Records are applied in step. -/
theorem applyRecords_inStep {records : List PatchRecord} {previous : Option TileKey}
    (hs : t.Twins P file file' rows tiles s s') (hbatch : checkBatch t.batch = .ok ())
    (hP : Set.InjOn payloadHash P)
    (hwritten : ∀ record ∈ records, (∀ key ∈ previous, key < record.key) →
      ∀ tile ∈ record.written? differ tiles, ∀ data ∈ tile.data, data ∈ P)
    (counters : TileCounters) :
    InStep file file' (applyRecords differ t counters previous records)
      (applyRecords differ t counters previous records) s s' (fun after after' u u' =>
        after = after' ∧ ∃ tiles, t.Twins P file file' rows tiles u u') Session.SameReport := by
  induction records generalizing tiles s s' previous counters with
  | nil => exact .pure ⟨rfl, tiles, hs⟩
  | cons record rest ih =>
      by_cases habove : ∀ key ∈ previous, key < record.key
      · rw [applyRecords_of_above habove]
        have hfirst := record.applyTo_inStep hs hbatch hP
          (hwritten record (List.mem_cons_self ..) habove)
          { counters with read := counters.read + 1 }
        refine hfirst.bind ?_
        rintro counters _ s₁ s₁' ⟨rfl, hs₁⟩
        refine ih hs₁ (fun other hother hlt => ?_) counters
        have hkey : record.key < other.key := hlt record.key rfl
        rw [PatchRecord.written?_congr (payloadAt_stepTiles hkey.ne' tiles)]
        exact hwritten other (List.mem_cons_of_mem _ hother) fun key hprevious =>
          (habove key hprevious).trans hkey
      · obtain ⟨failure, herror⟩ := applyRecords_of_not_above habove counters rest
        exact .of_error (herror s) (herror s') hs.report

/-- A patch is applied in step, in whatever state it is. -/
theorem DeltaSet.applyTo_inStep {delta : DeltaSet} (policy : MergePolicy)
    (hs : t.Twins P file file' rows tiles s s') (hbatch : checkBatch t.batch = .ok ())
    (hP : Set.InjOn payloadHash P) (hwritten : ∀ data, delta.Writes differ tiles data → data ∈ P) :
    InStep file file' (delta.applyTo differ policy t) (delta.applyTo differ policy t) s s'
      (fun after after' u u' => after = after' ∧
        ∃ rows tiles, t.Twins P file file' rows tiles u u') Session.SameReport := by
  refine (aggregate_inStep hs hbatch).bind ?_
  rintro actual _ s₁ s₁' ⟨rfl, hs₁⟩
  refine (requireHash_inStep hs₁ _ _ _).bind fun _ _ s₂ s₂' hs₂ => ?_
  refine (applyRecords_inStep hs₂ hbatch hP (fun record hrecord _ tile htile data hdata =>
    hwritten data ⟨record, hrecord, tile, htile, hdata⟩) .zero).bind ?_
  rintro counters _ s₃ s₃' ⟨rfl, tiles₃, hs₃⟩
  refine (ofExcept_inStep _ hs₃.report).bind ?_
  rintro _ _ _ _ ⟨-, rfl, rfl, rfl⟩
  refine (merge_inStep policy _ hs₃).bind ?_
  rintro _ _ s₄ s₄' ⟨rfl, rows₄, hs₄⟩
  refine (finalize_inStep hs₄).bind fun _ _ s₅ s₅' hs₅ => ?_
  refine (aggregate_inStep hs₅ hbatch).bind ?_
  rintro result _ s₆ s₆' ⟨rfl, hs₆⟩
  refine (requireHash_inStep hs₆ _ _ _).bind fun _ _ s₇ s₇' hs₇ => ?_
  refine (putMetadata_inStep hs₇ _ _).bind fun _ _ s₈ s₈' hs₈ => ?_
  refine (putMetadata_inStep hs₈ _ _).bind fun _ _ s₉ s₉' hs₉ => ?_
  refine (putMetadata_inStep hs₉ _ _).bind fun _ _ u u' hu => ?_
  exact .pure ⟨rfl, _, _, hu⟩

end TileAtlas
