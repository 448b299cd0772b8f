import TileAtlas.Proofs.Operation.Inversion
import TileAtlas.Proofs.Operation.Sync
import TileAtlas.Proofs.Tileset.Scanned

/-!
# The patch file and the difference

A patch is written to its file record by record while the tilesets are read.  When that has
succeeded, the file is read as the difference of the two tilesets, with one exception: a change to
the metadata whose name is that of the patch type takes the place of the patch type in the file,
which is read as a patch of whole tiles then.
-/

namespace TileAtlas

namespace PatchFile

/-! ### The patch type -/

variable {before after : String} {patchType : PatchType} {changes : List MetadataChange}

/-- The type that a patch is read with. -/
def readType (patchType : PatchType) (changes : List MetadataChange) : PatchType :=
  if ∃ change ∈ changes, change.name = .text patchTypeName then .whole else patchType

theorem readType_eq_iff :
    readType patchType changes = patchType ↔
      patchType = .whole ∨ ∀ change ∈ changes, change.name ≠ .text patchTypeName := by
  unfold readType
  split
  next hdisplaced =>
    obtain ⟨change, hchange, hname⟩ := hdisplaced
    exact ⟨fun h => .inl h.symm,
      fun h => (h.resolve_right fun hnone => hnone change hchange hname).symm⟩
  next hkept => exact ⟨fun _ => .inr fun change hchange hname => hkept ⟨change, hchange, hname⟩,
    fun _ => rfl⟩

theorem name_ofChange {change : MetadataChange} (hchange : change.IsText) {name : String} :
    (Entry.ofChange change).name = name ↔ change.name = .text name := by
  obtain ⟨own, rfl | ⟨value, rfl | rfl⟩⟩ := hchange <;>
    simp [Entry.ofChange, MetadataChange.name, Cell.display]

theorem patchTypeOf_eq_readType (hchanges : Metadata.Listed changes) :
    patchTypeOf (controlsOf (headerEntries before after patchType changes)) =
      .ok (readType patchType changes) := by
  have hdistinct := pairwise_headerEntries before after patchType hchanges
  let own : Entry := ⟨patchTypeName, some (Keyword.word patchType), none⟩
  -- an entry that is no change can only be the one that the patch has written for its type
  have honly {entry : Entry} (hentry : entry ∈ headerEntries before after patchType changes)
      (hname : entry.name = patchTypeName) (hchange : entry.change = none) :
      entry = own ∧ ∀ change ∈ changes, change.name ≠ .text patchTypeName := by
    rcases List.mem_append.1 hentry with hown | hchanged
    · obtain ⟨hmem, hkept⟩ := List.mem_filter.1 hown
      simp only [ownEntries, List.mem_cons, List.not_mem_nil, or_false] at hmem
      rcases hmem with rfl | rfl | rfl
      · exact absurd hname (show hashBeforeName ≠ patchTypeName by decide)
      · exact absurd hname (show hashAfterName ≠ patchTypeName by decide)
      · exact ⟨rfl, fun change hmem heq => of_decide_eq_true hkept _
          (List.mem_map_of_mem hmem) ((name_ofChange (hchanges.texts change hmem)).2 heq)⟩
    · obtain ⟨change, -, rfl⟩ := List.mem_map.1 hchanged
      cases hchange
  by_cases hdisplaced : ∃ change ∈ changes, change.name = .text patchTypeName
  · have hnone : (controlsOf (headerEntries before after patchType changes)).get?
        (.text patchTypeName) = none := by
      refine Option.eq_none_iff_forall_ne_some.2 fun value hvalue => ?_
      obtain ⟨entry, hentry, hname, hchange, -⟩ := (get?_controlsOf hdistinct).1 hvalue
      obtain ⟨change, hmem, heq⟩ := hdisplaced
      exact (honly hentry hname hchange).2 change hmem heq
    rw [patchTypeOf, hnone, readType, if_pos hdisplaced]
    rfl
  · have hmem : own ∈ headerEntries before after patchType changes := by
      refine List.mem_append_left _ (List.mem_filter.2 ⟨by simp [ownEntries, own],
        decide_eq_true fun entry hentry heq => hdisplaced ?_⟩)
      obtain ⟨change, hchange, rfl⟩ := List.mem_map.1 hentry
      exact ⟨change, hchange, (name_ofChange (hchanges.texts change hchange)).1 heq⟩
    have hsome : (controlsOf (headerEntries before after patchType changes)).get?
        (.text patchTypeName) = some (.text (Keyword.word patchType)) :=
      (get?_controlsOf hdistinct).2 ⟨own, hmem, rfl, rfl, rfl⟩
    rw [patchTypeOf, hsome, readType, if_neg hdisplaced]
    cases patchType <;> rfl

/-- A patch has the type that its controls name. -/
theorem patchType_of_load {batch : Int} {file : String} {c : Container} {delta : DeltaSet}
    {rows : List HeaderRow} (hload : load batch file c = .ok delta)
    (hrows : headerRows file c = .ok rows) : patchTypeOf (controls rows) = .ok delta.patchType := by
  simp only [load, readHeader, hrows, bind, Except.bind] at hload
  split at hload
  · cases hload
  next header hheader =>
    obtain rfl := Except.ok.inj hload
    split at hheader
    · cases hheader
    · unfold typeAndChanges at hheader
      cases htype : patchTypeOf (controls rows) with
      | error why => simp [htype, bind, Except.bind] at hheader
      | ok read =>
          cases hchanges : changesOf rows with
          | error why => simp [htype, hchanges, bind, Except.bind] at hheader
          | ok changes =>
              simp only [htype, hchanges, bind, Except.bind, pure, Except.pure] at hheader
              obtain rfl := Except.ok.inj hheader
              rfl

/-- A patch that has been written is loaded as it was, with the type that it is read with. -/
theorem load_container_eq {batch : Int} (hbatch : Tileset.checkBatch batch = .ok ())
    (file : String) (hchanges : Metadata.Listed changes) {records : List PatchRecord}
    (hrecords : records.Pairwise fun r s => r.key < s.key)
    (hstorable : ∀ record ∈ records, Storable record) :
    load batch file (container (headerEntries before after patchType changes) records) =
      .ok ⟨.text before, .text after, readType patchType changes, changes, .ofList records⟩ := by
  obtain ⟨read, hload⟩ :=
    load_container hbatch file before after patchType hchanges hrecords hstorable
  have hread := patchType_of_load hload (headerRows_container file _ records)
  rw [show controls _ = controlsOf _ from rfl, patchTypeOf_eq_readType hchanges] at hread
  obtain rfl : readType patchType changes = read := Except.ok.inj hread
  exact hload

end PatchFile

/-! ### The patch that a difference leaves -/

/-- What an open tileset shows to a comparison. -/
def Tileset.source (t : Tileset) (file : String) (c : Container) : TileSource :=
  ⟨t.scan .all file c, Tileset.metadata file c⟩

section

variable {differ : Differ} {patchType : PatchType} {files : Workspace}
  {base target patch : PathName} {basePlace targetPlace : List String}
  {baseSet targetSet : Tileset} {baseSession targetSession : Session}
  {baseTiles targetTiles : List Tile} {baseMetadata targetMetadata : Metadata}
  {changes : List MetadataChange} {records : List PatchRecord}

/-- The difference of two tilesets, made of what they show. -/
theorem between_of_shows (hbase : files.Shows base basePlace baseSet baseSession baseTiles
      baseMetadata)
    (htarget : files.Shows target targetPlace targetSet targetSession targetTiles targetMetadata)
    {batch : Int} (hbatch : Tileset.checkBatch batch = .ok ())
    (hdiff : baseMetadata.diff targetMetadata = .ok changes)
    (hwalk : diffRecords differ patchType (.ofList baseTiles) (.ofList targetTiles) =
      .ofList records) :
    DeltaSet.between differ patchType
        ((⟨baseSet.shape, batch⟩ : Tileset).source base.text baseSession.contents)
        ((⟨targetSet.shape, batch⟩ : Tileset).source target.text targetSession.contents) =
      .ok ⟨.text (aggregateHash baseTiles), .text (aggregateHash targetTiles), patchType, changes,
        .ofList records⟩ := by
  simp only [DeltaSet.between, Tileset.source, (hbase.reads hbatch).scan,
    (htarget.reads hbatch).scan, hbase.metadata, htarget.metadata, hdiff, hwalk, bind, Except.bind]
  rfl

end

namespace Diff

variable {patchType : PatchType} {before after : String} {changes : List MetadataChange}
  {records : List PatchRecord} {s s' : Session}

/-- Writing a patch succeeds only in a container with nothing in it. -/
theorem isEmpty_of_writePatch {records : Scan PatchRecord}
    (h : writePatch patchType before after changes records s = .ok () s') :
    s.contents.isEmpty = true := by
  unfold writePatch at h
  obtain ⟨_, _, hcreate, -⟩ := bind_eq_ok.1 h
  unfold PatchFile.create at hcreate
  rw [get_bind_eq_ok] at hcreate
  by_contra hempty
  rw [if_neg hempty] at hcreate
  cases hcreate

/-- What a patch file holds once the patch has been written to it. -/
theorem contents_of_transaction
    (h : Action.transaction (writePatch patchType before after changes (.ofList records)) s =
      .ok () s')
    (hwritable : s.writable = true) (hchanges : Metadata.Listed changes)
    (hrecords : records.Pairwise fun r s => r.key < s.key)
    (hstorable : ∀ record ∈ records, PatchFile.Storable record) :
    s'.contents = PatchFile.container
      (PatchFile.headerEntries before after patchType changes) records := by
  obtain ⟨written, hwritten, rfl⟩ := Action.transaction_eq_ok h
  have hempty := Container.eq_empty_of_isEmpty (isEmpty_of_writePatch hwritten)
  obtain ⟨_, _, hyields, hcontents⟩ :
      Yields (writePatch patchType before after changes (.ofList records)) _ _ :=
    writePatch_spec hempty hwritable hchanges hrecords hstorable
  cases hyields.symm.trans hwritten
  exact hcontents

end Diff

/-- When a difference has been written to a patch file, the file is read as that difference but for
its type, which is that of a patch of whole tiles if a change bears its name. -/
theorem diff_load {differ : Differ} (hdiffer : ∀ old new, ∃ delta, differ.diff old new = .ok delta)
    {patchType : PatchType} {batch : Int} {files : Workspace} {base target patch : PathName}
    {basePlace targetPlace : List String} {baseSet targetSet : Tileset}
    {baseSession targetSession : Session} {baseTiles targetTiles : List Tile}
    {baseMetadata targetMetadata : Metadata}
    (hbase : files.Shows base basePlace baseSet baseSession baseTiles baseMetadata)
    (htarget : files.Shows target targetPlace targetSet targetSession targetTiles targetMetadata)
    (hsucceeded : (diff differ patchType batch base target patch files).succeeded = true) :
    ∃ place contents delta,
      (diff differ patchType batch base target patch files).files.follow patch =
        .found place (.container contents) ∧
      PatchFile.checkPatch patch.text contents = .ok () ∧ delta.patchType = patchType ∧
      ∀ readBatch : Int, -0x80000000 ≤ readBatch ∧ readBatch < 0x80000000 →
        DeltaSet.between differ patchType
            ((⟨baseSet.shape, readBatch⟩ : Tileset).source base.text baseSession.contents)
            ((⟨targetSet.shape, readBatch⟩ : Tileset).source target.text targetSession.contents) =
          .ok delta ∧
        PatchFile.load readBatch patch.text contents =
          .ok { delta with patchType := PatchFile.readType patchType delta.metadataChanges } ∧
        (PatchFile.load readBatch patch.text contents = .ok delta ↔
          patchType = .whole ∨
            ∀ change ∈ delta.metadataChanges, change.name ≠ .text patchTypeName) := by
  obtain ⟨job, hrun, hout⟩ := runOperation_succeeded hsucceeded
  -- what the two tilesets show fixes what is read before the patch is opened
  obtain ⟨baseHeld, -, hbaseValid, -, -, rfl⟩ := hbase.holding
  obtain ⟨targetHeld, -, htargetValid, -, -, rfl⟩ := htarget.holding
  obtain ⟨changes, hdiff, hlisted, -⟩ :=
    Metadata.diff_ofTexts hbaseValid.names htargetValid.names
  obtain ⟨hmem, hrecords⟩ := walkRecords_spec patchType hdiffer hbase.ascending htarget.ascending
  have hwalk := diffRecords_ofList patchType hdiffer hbase.ascending htarget.ascending
  generalize (walkRecords differ patchType none none baseTiles targetTiles).items = records at *
  have hstorable : ∀ record ∈ records, PatchFile.Storable record := fun record hrecord =>
    ((hmem record).1 hrecord).storable hbase.fits htarget.fits
  simp only [Diff.body, get_bind_eq_ok, guard_eq_ok, Operation.readContainer_bind_eq_ok,
    Operation.ofExcept_bind_eq_ok] at hrun
  obtain ⟨-, _, baseContents, hbaseFollow, _, targetContents, htargetFollow, baseShape, hbaseShape,
    targetShape, htargetShape, before, hbefore, after, hafter, readBase, hreadBase, readTarget,
    hreadTarget, read, hread, hrun⟩ := hrun
  simp only [Job.start] at hbaseFollow htargetFollow
  obtain ⟨rfl, rfl⟩ := Workspace.follow_container_inj hbaseFollow hbase.follow
  obtain ⟨rfl, rfl⟩ := Workspace.follow_container_inj htargetFollow htarget.follow
  obtain rfl := Except.ok.inj (hbaseShape.symm.trans
    (hbase.reads (show Tileset.checkBatch 1 = .ok () from rfl)).detected)
  obtain rfl := Except.ok.inj (htargetShape.symm.trans
    (htarget.reads (show Tileset.checkBatch 1 = .ok () from rfl)).detected)
  have hbatch := Tileset.checkBatch_of_aggregate hbefore
  obtain rfl := Except.ok.inj (hbefore.symm.trans (hbase.reads hbatch).aggregate)
  obtain rfl := Except.ok.inj (hafter.symm.trans (htarget.reads hbatch).aggregate)
  obtain rfl := Except.ok.inj (hreadBase.symm.trans hbase.metadata)
  obtain rfl := Except.ok.inj (hreadTarget.symm.trans htarget.metadata)
  obtain rfl := Except.ok.inj (hdiff.symm.trans hread)
  rw [(hbase.reads hbatch).scan, (htarget.reads hbatch).scan, hwalk] at hrun
  obtain ⟨_, job', hcreated, hrest⟩ := bind_eq_ok.1 hrun
  have hfiles : job.files = job'.files := by
    cases hrest
    rfl
  obtain ⟨made, place, contents, session, hopens, hwrite, hsame, -⟩ :=
    Operation.onCreated_eq_ok hcreated
  rw [Diff.contents_of_transaction hwrite rfl hlisted hrecords hstorable, ← hfiles] at hsame
  let stored := PatchFile.container (PatchFile.headerEntries (aggregateHash baseTiles)
    (aggregateHash targetTiles) patchType changes) records
  refine ⟨place, stored, ⟨.text (aggregateHash baseTiles), .text (aggregateHash targetTiles),
    patchType, changes, .ofList records⟩, ?_, PatchFile.checkPatch_container patch.text _ _, rfl,
    fun readBatch hreadBatch => ?_⟩
  · show (runOperation "diff" _ _ files).files.follow patch = _
    rw [hout]
    exact hopens.follow_of_same hsame
  · have hreadOk := checkBatch_of_range hreadBatch
    have hload : PatchFile.load readBatch patch.text stored = _ :=
      PatchFile.load_container_eq hreadOk patch.text hlisted hrecords hstorable
    refine ⟨between_of_shows hbase htarget hreadOk hdiff hwalk, hload, ?_⟩
    rw [hload, ← PatchFile.readType_eq_iff]
    exact ⟨fun h => congrArg DeltaSet.patchType (Except.ok.inj h), fun h => by rw [h]⟩

/-- A patch of deltas for a target with a value under the name of the patch type is read as a patch
of whole tiles. -/
theorem diff_load_displaced :
    let differ : Differ := ⟨fun _ new => .ok new, fun _ delta => .ok delta⟩
    let base := Layout.flat.container .empty
    let target := Layout.flat.container ⟨[], [], [("patch_type", "sea")]⟩
    let files : Workspace := ⟨[(["a"], .container base), (["b"], .container target)]⟩
    let outcome := diff differ .delta 1000 ⟨["a"]⟩ ⟨["b"]⟩ ⟨["p"]⟩ files
    let t : Tileset := ⟨Layout.flat.shape, 1000⟩
    outcome.succeeded = true ∧ ∃ place contents delta,
      outcome.files.follow ⟨["p"]⟩ = .found place (.container contents) ∧
      DeltaSet.between differ .delta (t.source "a" base) (t.source "b" target) = .ok delta ∧
      PatchFile.load 1000 "p" contents = .ok { delta with patchType := .whole } ∧
      PatchFile.load 1000 "p" contents ≠ .ok delta := by
  intro differ base target files outcome t
  have hbase : files.Shows ⟨["a"]⟩ ["a"] t
      { Session.start "a" true .empty with contents := base } [] .empty :=
    ⟨Tileset.Reached.start .flat 1000 "a", rfl, rfl, rfl⟩
  have htarget : files.Shows ⟨["b"]⟩ ["b"] t
      { Session.start "b" true .empty with contents := target } []
      (.ofTexts [("patch_type", "sea")]) := by
    have hcreated := Tileset.Reached.start .flat 1000 "b"
    exact ⟨hcreated.succeeded (.putMetadata "patch_type" (some "sea")) rfl, rfl, rfl, rfl⟩
  have hsucceeded : outcome.succeeded = true := by decide +kernel
  obtain ⟨place, contents, delta, hfollow, -, htype, hload⟩ :=
    diff_load (fun _ new => ⟨new, rfl⟩) hbase htarget hsucceeded
  obtain ⟨hbetween, hread, -⟩ := hload 1000 (by decide)
  refine ⟨hsucceeded, place, contents, delta, hfollow, hbetween, ?_⟩
  have hchanges : delta.metadataChanges = [.add (.text "patch_type") (.text "sea")] := by
    have h : DeltaSet.between differ .delta (t.source "a" base) (t.source "b" target) =
      .ok ⟨_, _, _, [.add (.text "patch_type") (.text "sea")], _⟩ := rfl
    rw [Except.ok.inj (hbetween.symm.trans h)]
  have hwhole : PatchFile.readType .delta delta.metadataChanges = .whole := by
    rw [hchanges]
    rfl
  rw [hwhole] at hread
  refine ⟨hread, fun hsame => ?_⟩
  have hbad : PatchType.whole = delta.patchType :=
    congrArg DeltaSet.patchType (Except.ok.inj (hread.symm.trans hsame))
  rw [htype] at hbad
  cases hbad

end TileAtlas
