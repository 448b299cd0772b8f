import TileAtlas.Proofs.Operation.Streamed
import TileAtlas.Proofs.Operation.Unfiltered
import TileAtlas.Proofs.Tileset.Made

/-!
# What operations leave in a container

An operation that writes to a tileset is made up of store operations, and it computes the aggregate
hash anew if it may have changed the tiles.  So what it leaves in its output has been made by the
library, and the stored hashes are right.
-/

namespace TileAtlas

open TileAtlas.Action Tileset

/-- A tileset of the library whose stored hashes are right, the one of all tiles being there if it
has been refreshed, which takes a number of rows to fetch that is a machine integer. -/
structure Container.Settled (c : Container) (batch : Int) (refreshed : Prop) : Prop where
  made : c.Made
  sound : c.Sound
  fresh : refreshed → c.Fresh
  batch : refreshed → checkBatch batch = .ok ()

theorem Container.Made.settled {c : Container} {batch : Int} (hmade : c.Made) (hfresh : c.Fresh)
    (hbatch : checkBatch batch = .ok ()) : c.Settled batch True :=
  ⟨hmade, hmade.sound hfresh, fun _ => hfresh, fun _ => hbatch⟩

variable {t : Tileset} {s : Session}

/-! ### Copying -/

namespace Copy

variable {options : CopyOptions} {onDuplicate : OnDuplicate} {batch : Int}

theorem copyTile_leaves (ht : t.Made s) (onDuplicate : OnDuplicate) (check : Bool) (tile : Tile) :
    Leaves (copyTile t onDuplicate check tile) s t.Made := by
  rw [copyTile_eq]
  refine (ht.note_leaves _).bind fun _ s₁ ht₁ => ?_
  have hexisting : Leaves (if check then query (t.entry? tile.key) else pure none) s₁ t.Made := by
    split
    · exact leaves_query _ ht₁
    · exact .pure ht₁
  refine hexisting.bind fun existing s₂ ht₂ => ?_
  refine (leaves_ofExcept _ ht₂).bind fun out s₃ ht₃ => ?_
  split
  · exact ht₃.note_leaves _
  · exact (ht₃.put_leaves tile.key tile.data).bind fun _ _ ht₄ => ht₄.note_leaves _

theorem copyEach_leaves (ht : t.Made s) (onDuplicate : OnDuplicate) (check : Bool)
    (tiles : List Tile) : Leaves (copyEach t onDuplicate check tiles) s t.Made := by
  induction tiles generalizing s with
  | nil => exact .pure ht
  | cons tile rest ih =>
      exact (copyTile_leaves ht onDuplicate check tile).bind fun _ _ ht' => ih ht'

theorem copyTiles_ends (ht : t.Made s) (scan : Scan Tile) :
    Ends (copyTiles t onDuplicate scan) s
      (fun _ s' => t.Made s' ∧ s'.contents.Fresh ∧ checkBatch t.batch = .ok ()) fun _ => True := by
  refine (leaves_query _ ht).on_success.bind fun empty s₁ ht₁ => ?_
  refine (copyEach_leaves ht₁ onDuplicate _ scan.items).on_success.bind fun _ s₂ ht₂ => ?_
  refine (leaves_ofExcept _ ht₂).on_success.bind fun _ s₃ ht₃ => ?_
  refine ht₃.finalize_leaves.on_success.bind fun _ s₄ ht₄ => ?_
  refine ht₄.aggregate_ends.bind ?_
  rintro _ s₄ ⟨rfl, hbatch, rows, h, hs, rfl⟩
  refine (note_spec _ s₄).ends.bind fun _ s₅ hnoted => ?_
  have ht₅ : t.Made s₅ := hnoted ▸ ht₄.aside rfl rfl rfl
  have hs₅ : t.HoldsBeside rows h s₅ := hnoted ▸ hs.of_eq rfl rfl rfl
  exact (ht₅.putAggHash_leaves hs₅).mono (fun _ _ hs' => ⟨hs'.1, hs'.2, hbatch⟩)
    fun _ _ => trivial

theorem destination_ends (hready : s.contents.Ready) (hwritable : s.writable = true)
    (source : Layout) (requested : Option Layout) (batch : Int) :
    Ends (destination source requested batch) s
      (fun t s' => t.Made s' ∧ s'.contents.Sound ∧ t.batch = batch) fun _ => True := by
  unfold destination
  refine Ends.get_bind ?_
  split
  · exact createIn_ends hwritable (requested.getD source) batch
  · refine (openIn_ends hready hwritable batch).bind fun t s₁ hs₁ => ?_
    cases requested with
    | none => exact .pure hs₁
    | some other =>
        dsimp only
        split
        · exact .pure hs₁
        · exact ⟨hs₁.1.notified _, hs₁.2⟩

/-- What a copy leaves in its destination.  If only metadata is copied, the tiles and the stored
hash stay, since its name is reserved. -/
theorem copyInto_ends (hready : s.contents.Ready) (hwritable : s.writable = true)
    (options : CopyOptions) (batch : Int) (shape : Shape) (metadata : Except Failure Metadata)
    (scan : Scan Tile) :
    Ends (copyInto options batch shape metadata scan) s
      (fun _ s' => s'.contents.Settled batch (options.copyType.copiesTiles = true))
      fun _ => True := by
  rw [copyInto_eq]
  refine (destination_ends hready hwritable shape.layout options.layout batch).bind ?_
  rintro t s₁ ⟨ht₁, hsound₁, rfl⟩
  let I (s' : Session) : Prop := t.Made s' ∧ s'.contents.Sound
  have hmetadata : Leaves (if options.copyType.copiesMetadata then
        copyMetadata options.onDuplicate metadata >>= fun taken =>
          note fun account => { account with metadataChanges := taken }
      else pure ()) s₁ I := by
    split
    · refine (copyMetadata_leaves (I := I) ?_ ?_ metadata ⟨ht₁, hsound₁⟩).bind ?_
      · exact fun s' notices hs' => ⟨hs'.1.notified notices, hs'.2⟩
      · intro name value hname s' hs'
        exact (hs'.1.putOther_leaves (keep_ne_aggHashName hname) value).mono
          (fun _ _ h => ⟨h.1, h.2.2 hs'.2⟩) fun _ h => ⟨h.1, h.2.2 hs'.2⟩
      · exact fun taken s' hs' => ⟨hs'.1.aside rfl rfl rfl, hs'.2⟩
    · exact .pure ⟨ht₁, hsound₁⟩
  refine hmetadata.on_success.bind fun _ s₂ hs₂ => ?_
  split
  · refine (copyTiles_ends hs₂.1 scan).mono ?_ fun _ _ => trivial
    rintro _ s₃ ⟨ht₃, hfresh, hbatch⟩
    exact ⟨ht₃.contents, ht₃.contents.sound hfresh, fun _ => hfresh, fun _ => hbatch⟩
  next hnot =>
    exact .pure ⟨hs₂.1.contents, hs₂.2, fun htype => absurd htype hnot,
      fun htype => absurd htype hnot⟩

end Copy

/-! ### Applying a patch -/

theorem requireHash_leaves {I : Session → Prop} (computed : Option String) (expected : Cell)
    (fault : Fault) (hs : I s) : Leaves (requireHash computed expected fault) s I := by
  refine (leaves_ofExcept _ hs).bind fun same s' hs' => ?_
  split
  · exact .pure hs'
  · exact .throw hs'

namespace ApplyPatch

theorem applyRecord_leaves (ht : t.Made s) (record : PatchRecord) (differ : Differ)
    (counters : TileCounters) : Leaves (record.applyTo differ t counters) s t.Made := by
  unfold PatchRecord.applyTo
  dsimp only
  split
  · exact (ht.delete_leaves record.key).bind fun _ _ ht' => .pure ht'
  · refine (requireHash_leaves _ _ _ ht).bind fun _ _ ht₁ => ?_
    exact (ht₁.put_leaves _ _).bind fun _ _ ht' => .pure ht'
  · refine (leaves_query _ ht).bind fun entry s₁ ht₁ => ?_
    split
    · exact .throw ht₁
    · refine (leaves_ofExcept _ ht₁).bind fun new _ ht₂ => ?_
      refine (requireHash_leaves _ _ _ ht₂).bind fun _ _ ht₃ => ?_
      exact (ht₃.put_leaves _ _).bind fun _ _ ht' => .pure ht'

theorem applyRecords_leaves (ht : t.Made s) (differ : Differ) (records : List PatchRecord)
    (counters : TileCounters) (previous : Option TileKey) :
    Leaves (applyRecords differ t counters previous records) s t.Made := by
  induction records generalizing s counters previous with
  | nil => exact .pure ht
  | cons record rest ih =>
      by_cases habove : ∀ key ∈ previous, key < record.key
      · rw [applyRecords_of_above habove]
        exact (applyRecord_leaves ht record differ _).bind fun _ _ ht' => ih ht' _ _
      · obtain ⟨failure, herror⟩ := applyRecords_of_not_above habove counters rest
        exact .of_error (herror s) ht

theorem applyTo_ends (ht : t.Made s) (delta : DeltaSet) (differ : Differ) (policy : MergePolicy) :
    Ends (delta.applyTo differ policy t) s
      (fun _ s' => t.Made s' ∧ s'.contents.Fresh ∧ checkBatch t.batch = .ok ()) fun _ => True := by
  refine (leaves_query _ ht).on_success.bind fun actual s₁ ht₁ => ?_
  refine (requireHash_leaves _ _ _ ht₁).on_success.bind fun _ s₂ ht₂ => ?_
  refine (applyRecords_leaves ht₂ differ _ _ _).on_success.bind fun counters s₃ ht₃ => ?_
  refine (leaves_ofExcept _ ht₃).on_success.bind fun _ s₄ ht₄ => ?_
  refine (ht₄.merge_leaves policy delta.metadataChanges).on_success.bind fun _ s₅ ht₅ => ?_
  refine ht₅.finalize_leaves.on_success.bind fun _ s₆ ht₆ => ?_
  refine ht₆.aggregate_ends.bind ?_
  rintro _ s₆ ⟨rfl, hbatch, rows, h, hs, rfl⟩
  let I (s' : Session) : Prop := t.Made s' ∧ t.HoldsBeside rows h s'
  refine (requireHash_leaves (I := I) _ _ _ ⟨ht₆, hs⟩).on_success.bind fun _ s₇ hs₇ => ?_
  refine (hs₇.1.putAggHash_leaves hs₇.2).on_success.bind fun _ s₈ hs₈ => ?_
  refine (hs₈.1.putOther_leaves (by decide) .null).on_success.bind fun _ s₉ hs₉ => ?_
  refine (hs₉.1.putOther_leaves (by decide) .null).on_success.bind fun _ s₁₀ hs₁₀ => ?_
  exact .pure ⟨hs₁₀.1, hs₁₀.2.1 (hs₉.2.1 hs₈.2), hbatch⟩

theorem applyCounting_ends (ht : t.Made s) (delta : DeltaSet) (differ : Differ)
    (policy : MergePolicy) :
    Ends (applyCounting delta differ policy t) s
      (fun _ s' => s'.contents.Settled t.batch True) fun _ => True := by
  refine (applyTo_ends ht delta differ policy).bind fun counters s' ⟨ht', hfresh, hbatch⟩ => ?_
  exact ht'.contents.settled hfresh hbatch

/-- A copy of a base is a tileset of the library, whatever the base is. -/
theorem copyBase_ends (hwritable : s.writable = true) (layout : Layout) (batch : Int)
    (metadata : Except Failure Metadata) (tiles : Scan Tile) :
    Ends (copyBase layout batch metadata tiles) s (fun t s' => t.Made s' ∧ t.batch = batch)
      fun _ => True := by
  refine (createIn_ends hwritable layout batch).bind fun t s₁ ⟨ht₁, _, hbatch⟩ => ?_
  refine (leaves_ofExcept _ ht₁).on_success.bind fun m s₂ ht₂ => ?_
  refine (ht₂.putAllMetadata_leaves m.entries).on_success.bind fun _ s₃ ht₃ => ?_
  refine (ht₃.putAll_leaves tiles.items).on_success.bind fun _ s₄ ht₄ => ?_
  exact (leaves_ofExcept _ ht₄).on_success.bind fun _ s₅ ht₅ => .pure ⟨ht₅, hbatch⟩

end ApplyPatch

/-! ### Validating -/

/-- Bringing the stored hash up to date refreshes it. -/
theorem Tileset.validate_update (ht : t.Made s) (integrity : IntegrityCheck) :
    Ends (t.validate integrity .update) s (fun _ s' => s'.contents.Settled t.batch True)
      fun _ => True := by
  obtain ⟨⟨rows, h, hs⟩, -⟩ := ht.holds
  refine (value_spec hs.contents aggHashName).ends.bind ?_
  rintro _ s ⟨rfl, rfl⟩
  refine ((query_ends t.checkedTiles s).on_success).bind ?_
  rintro tiles s ⟨htiles, rfl⟩
  have hbatch := checkBatch_of_checkedTiles htiles
  rw [hs.contents, checkedTiles_containerWith s.file hs.valid hbatch] at htiles
  obtain rfl := Except.ok.inj htiles
  have hsettle : Ends (settleAggHash .update (Layout.valueIn rows aggHashName)
      (aggregateHash h.sorted)) s (fun _ s' => t.Made s' ∧ s'.contents.Fresh) fun _ => True := by
    unfold settleAggHash
    dsimp only
    split
    next hstored =>
      refine .pure ⟨ht, ?_⟩
      rw [hs.contents, fresh_containerWith_iff hs.valid]
      exact hstored
    · exact (ht.putAggHash_leaves hs).on_success.bind fun _ _ hs' => .pure hs'
  refine hsettle.bind fun _ s' ⟨ht', hfresh⟩ => ?_
  exact ht'.contents.settled hfresh hbatch

/-! ### What is written to a file -/

theorem Workspace.opens_of_follow {w : Workspace} {path : PathName} {place : List String}
    {contents : Container} (h : w.follow path = .found place (.container contents)) :
    w.Opens w path place contents := by
  obtain ⟨position, hparent⟩ := follow_parent h nofun
  exact ⟨by simp only [makeDirectory, hparent], .inl h⟩

/-- Whether files have changed by what has been written at a path name, and what has been written
settles a container that may be written to. -/
def Workspace.Settles (files : Workspace) (path : PathName) (batch : Int) (refreshed : Prop)
    (after : Workspace) : Prop :=
  ∃ made place before contents, files.Opens made path place before ∧
    (made.set place (.container contents)).Same after ∧
    (before.Ready → contents.Settled batch refreshed)

section Files

variable {α : Type} {body : Action α} {batch : Int} {refreshed : Prop} {path : PathName}
  {job job' : Job} {a : α}

theorem settles_of_onCreated
    (hbody : ∀ s : Session, s.contents.Ready → s.writable = true →
      Ends body s (fun _ s' => s'.contents.Settled batch refreshed) fun _ => True)
    (h : Operation.onCreated path body job = .ok a job') :
    job.files.Settles path batch refreshed job'.files := by
  obtain ⟨made, place, before, after, hopens, hwork, hsame, -⟩ := Operation.onCreated_eq_ok h
  exact ⟨made, place, before, after.contents, hopens, hsame,
    fun hready => (hbody _ hready rfl).of_ok hwork⟩

theorem settles_of_onExisting
    (hbody : ∀ s : Session, s.contents.Ready → s.writable = true →
      Ends body s (fun _ s' => s'.contents.Settled batch refreshed) fun _ => True)
    (h : Operation.onExisting path true body job = .ok a job') :
    job.files.Settles path batch refreshed job'.files := by
  obtain ⟨place, before, after, hfollow, hwork, rfl⟩ := Operation.onExisting_eq_ok h
  exact ⟨job.files, place, before, after.contents, Workspace.opens_of_follow hfollow, .refl _,
    fun hready => (hbody _ hready rfl).of_ok hwork⟩

theorem transaction_settles
    (hbody : Ends body { s with inTransaction := true }
      (fun _ s' => s'.contents.Settled batch refreshed) fun _ => True) :
    Ends (transaction body) s (fun _ s' => s'.contents.Settled batch refreshed)
      fun _ => True := by
  cases hrun : transaction body s with
  | error failure s' => exact .of_error hrun trivial
  | ok a s' =>
      obtain ⟨after, hok, rfl⟩ := transaction_eq_ok hrun
      exact (Yields.intro hrun (hbody.of_ok hok)).ends

end Files

theorem copy_settles {options : CopyOptions} {batch : Int} {source destination : PathName}
    {files : Workspace} (h : (copy options batch source destination files).succeeded = true) :
    files.Settles destination batch (options.copyType.copiesTiles = true)
      (copy options batch source destination files).files := by
  obtain ⟨job, hrun, hout⟩ := runOperation_succeeded h
  have hfiles : (copy options batch source destination files).files = job.files :=
    congrArg Outcome.files hout
  rw [hfiles]
  simp only [Copy.body, get_bind_eq_ok, guard_eq_ok, Operation.readContainer_bind_eq_ok] at hrun
  obtain ⟨-, _, contents, -, hrun⟩ := hrun
  refine settles_of_onCreated (fun s hready hwritable => ?_) hrun
  refine (leaves_ofExcept (I := (· = s)) _ rfl).on_success.bind fun shape _ hs => hs ▸ ?_
  exact transaction_settles (Copy.copyInto_ends (s := { s with inTransaction := true }) hready
    hwritable options batch shape _ _)

/-- A patch is applied to the base itself or to a new file. -/
theorem applyPatch_settles {differ : Differ} {policy : MergePolicy} {batch : Int}
    {base patch : PathName} {destination : Option PathName} {files : Workspace}
    (h : (applyPatch differ policy batch base patch destination files).succeeded = true) :
    files.Settles (destination.getD base) batch True
      (applyPatch differ policy batch base patch destination files).files := by
  obtain ⟨job, hrun, hout⟩ := runOperation_succeeded h
  have hfiles : (applyPatch differ policy batch base patch destination files).files = job.files :=
    congrArg Outcome.files hout
  rw [hfiles]
  simp only [ApplyPatch.body, Operation.readContainer_bind_eq_ok,
    Operation.ofExcept_bind_eq_ok] at hrun
  obtain ⟨_, patchContents, -, _, -, delta, -, hrun⟩ := hrun
  cases destination with
  | none =>
      simp only [Operation.note, modify_bind_eq_ok] at hrun
      obtain ⟨_, written, hwrite, hnote⟩ := bind_eq_ok.1 hrun
      cases hnote
      refine settles_of_onExisting (fun s hready hwritable => ?_) hwrite
      refine (openIn_ends hready hwritable batch).bind fun t s' ⟨ht, _, hbatch⟩ => ?_
      have hopened : t.Made { s' with inTransaction := true } := ht.aside rfl rfl rfl
      have happly := ApplyPatch.applyCounting_ends hopened delta differ policy
      exact transaction_settles (hbatch ▸ happly)
  | some destination =>
      simp only [Operation.note, modify_bind_eq_ok] at hrun
      obtain ⟨_, written, hwrite, hnote⟩ := bind_eq_ok.1 hrun
      cases hnote
      simp only [ApplyPatch.intoCopy, get_bind_eq_ok, guard_eq_ok,
        Operation.readContainer_bind_eq_ok] at hwrite
      obtain ⟨-, -, _, contents, -, hwrite⟩ := hwrite
      refine settles_of_onCreated (fun s hready hwritable => ?_) hwrite
      refine (leaves_ofExcept (I := (· = s)) _ rfl).on_success.bind fun shape _ hs => hs ▸ ?_
      refine transaction_settles ?_
      refine (ApplyPatch.copyBase_ends (s := { s with inTransaction := true }) hwritable
        shape.layout batch _ _).bind ?_
      rintro t s' ⟨ht, rfl⟩
      exact ApplyPatch.applyCounting_ends ht delta differ policy

theorem validate_settles {integrity : IntegrityCheck} {batch : Int} {path : PathName}
    {files : Workspace} (h : (validate integrity .update batch path files).succeeded = true) :
    files.Settles path batch True (validate integrity .update batch path files).files := by
  obtain ⟨job, hrun, hout⟩ := runOperation_succeeded h
  have hfiles : (validate integrity .update batch path files).files = job.files :=
    congrArg Outcome.files hout
  rw [hfiles]
  obtain ⟨report, written, hwrite, hnote⟩ := bind_eq_ok.1 hrun
  cases hnote
  refine settles_of_onExisting (fun s hready hwritable => ?_) hwrite
  refine (openIn_ends hready hwritable batch).bind fun t s' ⟨ht, _, hbatch⟩ => ?_
  have hopened : t.Made { s' with inTransaction := true } := ht.aside rfl rfl rfl
  have hupdate := Tileset.validate_update hopened integrity
  exact transaction_settles (hbatch ▸ hupdate)

end TileAtlas
