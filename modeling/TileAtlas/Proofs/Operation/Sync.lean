import TileAtlas.Proofs.Operation.Success
import TileAtlas.Proofs.Patch.Load
import TileAtlas.Proofs.Patch.Reproduce
import TileAtlas.Proofs.Tileset.Scanned

/-!
# From one tileset to another

A patch that has been made of a base and a target brings every tileset with the tiles and the
metadata of the base to those of the target, whatever the layouts are and whatever the names of the
metadata are.
-/

namespace TileAtlas

/-! ### Tilesets in files -/

/-- Whether a path name leads to a container that the library has made, with the given tiles and
metadata in it. -/
structure Workspace.Shows (w : Workspace) (path : PathName) (place : List String) (t : Tileset)
    (s : Session) (tiles : List Tile) (metadata : Metadata) : Prop where
  reached : t.Reached s
  follow : w.follow path = .found place (.container s.contents)
  scan : Tileset.scan ⟨t.shape, 1⟩ .all path.text s.contents = .ofList tiles
  metadata : Tileset.metadata path.text s.contents = .ok metadata

section Shows

variable {w : Workspace} {path : PathName} {place : List String} {t : Tileset} {s : Session}
  {tiles : List Tile} {metadata : Metadata}

theorem Workspace.Shows.holding (h : w.Shows path place t s tiles metadata) :
    ∃ held : Holding, s.contents = t.shape.layout.container held ∧ held.Valid t.shape.layout ∧
      t.shape = t.shape.layout.shape ∧ tiles = held.sorted ∧ metadata = .ofTexts held.metadata := by
  obtain ⟨held, hs, hshape, hshown⟩ := h.reached.shown
  obtain ⟨hscan, hmetadata⟩ := hshown path.text
  exact ⟨held, hs.contents, hs.valid, hshape, congrArg Scan.items (h.scan.symm.trans hscan),
    Except.ok.inj (h.metadata.symm.trans hmetadata)⟩

/-- What a tileset in a file shows when it is opened with a number of rows to fetch. -/
structure Reads (file : String) (contents : Container) (shape : Shape) (batch : Int)
    (tiles : List Tile) : Prop where
  detected : detect file contents = .ok shape
  scan : Tileset.scan ⟨shape, batch⟩ .all file contents = .ofList tiles
  aggregate : Tileset.aggregate ⟨shape, batch⟩ file contents = .ok (aggregateHash tiles)

theorem reads_container (file : String) {layout : Layout} {held : Holding}
    (hvalid : held.Valid layout) {batch : Int} (hbatch : Tileset.checkBatch batch = .ok ()) :
    Reads file (layout.container held) layout.shape batch held.sorted where
  detected := detect_container file layout held
  scan := Tileset.scan_container file (t := ⟨layout.shape, batch⟩) hvalid hbatch
  aggregate := Tileset.aggregate_container file (t := ⟨layout.shape, batch⟩) hvalid hbatch

theorem Workspace.Shows.reads (h : w.Shows path place t s tiles metadata) {batch : Int}
    (hbatch : Tileset.checkBatch batch = .ok ()) :
    Reads path.text s.contents t.shape batch tiles := by
  obtain ⟨held, hcontents, hvalid, hshape, rfl, -⟩ := h.holding
  rw [hcontents, hshape]
  exact reads_container path.text hvalid hbatch

theorem Workspace.Shows.ascending (h : w.Shows path place t s tiles metadata) :
    Ascending tiles := by
  obtain ⟨held, -, hvalid, -, rfl, -⟩ := h.holding
  exact ascending_inOrder hvalid.keys

theorem Workspace.Shows.fits (h : w.Shows path place t s tiles metadata) :
    ∀ tile ∈ tiles, tile.key.cells.all Cell.fits = true := by
  obtain ⟨held, -, hvalid, -, rfl, -⟩ := h.holding
  exact fun tile htile => hvalid.fits tile (mem_inOrder.1 htile)

end Shows

/-! ### Making the patch -/

theorem Difference.storable {differ : Differ} {patchType : PatchType} {base target : List Tile}
    {record : PatchRecord} (hbase : ∀ tile ∈ base, tile.key.cells.all Cell.fits = true)
    (htarget : ∀ tile ∈ target, tile.key.cells.all Cell.fits = true)
    (h : Difference differ patchType base target record) : PatchFile.Storable record := by
  cases h with
  | removed hold => exact ⟨rfl, ⟨none, rfl⟩, hbase _ hold⟩
  | added hnew => exact ⟨rfl, ⟨_, rfl⟩, htarget _ hnew⟩
  | changed _ hnew _ _ hchange =>
      cases hchange with
      | full => exact ⟨rfl, ⟨_, rfl⟩, htarget _ hnew⟩
      | delta => exact ⟨rfl, ⟨some _, rfl⟩, htarget _ hnew⟩

namespace Diff

variable {before after : String} {patchType : PatchType} {changes : List MetadataChange}
  {records : List PatchRecord}

theorem writePatch_spec {s : Session} (hempty : s.contents = .empty) (hwritable : s.writable = true)
    (hchanges : Metadata.Listed changes) (hrecords : records.Pairwise fun r s => r.key < s.key)
    (hstorable : ∀ record ∈ records, PatchFile.Storable record) :
    Yields (writePatch patchType before after changes (.ofList records)) s fun _ s' =>
      s'.contents =
        PatchFile.container (PatchFile.headerEntries before after patchType changes) records := by
  refine (PatchFile.create_spec hempty hwritable).bind fun _ s₁ hs₁ => ?_
  refine (PatchFile.writeHeader_spec hs₁ hchanges.texts (hchanges.ascending.imp fun hlt => hlt.ne)
    before after patchType).bind fun _ s₂ hs₂ => ?_
  refine (PatchFile.note_spec hs₂ _).bind fun _ s₃ hs₃ => ?_
  refine (PatchFile.writeScan_spec hs₃ hstorable
    (hrecords.imp fun hlt => hlt.ne)).bind fun counters s₄ ⟨_, hs₄⟩ => ?_
  exact (PatchFile.note_spec hs₄ _).mono fun _ _ hs => hs.contents

theorem body_spec {differ : Differ} {batch : Int} {files made : Workspace}
    {base target patch : PathName} {place : List String} {baseContents targetContents : Container}
    {basePlace targetPlace : List String} {baseShape targetShape : Shape}
    {baseTiles targetTiles : List Tile} {baseMetadata targetMetadata : Metadata}
    (hbaseFollow : files.follow base = .found basePlace (.container baseContents))
    (htargetFollow : files.follow target = .found targetPlace (.container targetContents))
    (hbase : Reads base.text baseContents baseShape batch baseTiles)
    (htarget : Reads target.text targetContents targetShape batch targetTiles)
    (hbaseMetadata : Tileset.metadata base.text baseContents = .ok baseMetadata)
    (htargetMetadata : Tileset.metadata target.text targetContents = .ok targetMetadata)
    (hdiff : baseMetadata.diff targetMetadata = .ok changes)
    (hwalk : diffRecords differ patchType (.ofList baseTiles) (.ofList targetTiles) =
      .ofList records)
    (hchanges : Metadata.Listed changes) (hrecords : records.Pairwise fun r s => r.key < s.key)
    (hstorable : ∀ record ∈ records, PatchFile.Storable record)
    (hnew : files.contains patch = false) (hmade : files.makeDirectory patch.parent = .ok made)
    (hvacant : made.follow patch = .vacant place) :
    Yields (body differ patchType batch base target patch) (.start files) fun _ job =>
      job.files = (made.set place (.container .empty)).set place (.container
        (PatchFile.container (PatchFile.headerEntries (aggregateHash baseTiles)
          (aggregateHash targetTiles) patchType changes) records)) := by
  refine (Operation.get_spec _).bind ?_
  rintro _ _ ⟨rfl, rfl⟩
  refine Operation.guard_spec (fun hcontains => absurd hcontains (by simp [Job.start, hnew])) ?_
  refine (Operation.readContainer_spec hbaseFollow).bind ?_
  rintro _ _ ⟨rfl, rfl⟩
  refine (Operation.readContainer_spec htargetFollow).bind ?_
  rintro _ _ ⟨rfl, rfl⟩
  refine (Operation.ofExcept_spec hbase.detected _).bind ?_
  rintro _ _ ⟨rfl, rfl⟩
  refine (Operation.ofExcept_spec htarget.detected _).bind ?_
  rintro _ _ ⟨rfl, rfl⟩
  refine (Operation.ofExcept_spec hbase.aggregate _).bind ?_
  rintro _ _ ⟨rfl, rfl⟩
  refine (Operation.ofExcept_spec htarget.aggregate _).bind ?_
  rintro _ _ ⟨rfl, rfl⟩
  refine (Operation.ofExcept_spec hbaseMetadata _).bind ?_
  rintro _ _ ⟨rfl, rfl⟩
  refine (Operation.ofExcept_spec htargetMetadata _).bind ?_
  rintro _ _ ⟨rfl, rfl⟩
  refine (Operation.ofExcept_spec hdiff _).bind ?_
  rintro listed _ ⟨hlisted, rfl⟩
  rw [hlisted, hbase.scan, htarget.scan, hwalk]
  refine (Operation.onCreated_spec hmade hvacant (Q := fun _ after => after =
    PatchFile.container (PatchFile.headerEntries (aggregateHash baseTiles)
      (aggregateHash targetTiles) patchType changes) records) fun account => ?_).bind ?_
  · exact Action.transaction_spec (Q := fun _ after => after = _) rfl
      (writePatch_spec rfl rfl hchanges hrecords hstorable)
  · rintro _ job ⟨after, rfl, hfiles⟩
    exact .intro rfl hfiles

end Diff

/-! ### Applying the patch -/

namespace ApplyPatch

variable {differ : Differ} {policy : MergePolicy} {delta : DeltaSet} {layout : Layout}
  {held : Holding} {P : Set Bytes} {batch : Int}

/-- Whether a patch applies to what is held, and no two of the payloads that are held or written
have the same hash. -/
structure Suits (delta : DeltaSet) (differ : Differ) (policy : MergePolicy) (held : Holding)
    (P : Set Bytes) : Prop where
  hashes : Set.InjOn payloadHash P
  images : ∀ image ∈ held.images, image ∈ P
  complete : delta.records.failure = none
  keys : ∀ record ∈ delta.records.items, record.key.cells.all Cell.fits = true
  written : ∀ record ∈ delta.records.items,
    ∀ tile ∈ record.written? differ held.sorted, ∀ data ∈ tile.data, data ∈ P
  texts : ∀ change ∈ delta.metadataChanges, change.IsText
  applies : delta.Applies differ policy held.sorted (.ofTexts held.metadata)

/-- What a container of a layout holds after a patch has been applied to it. -/
def Outcome (layout : Layout) (held : Holding) (differ : Differ) (policy : MergePolicy)
    (delta : DeltaSet) (after : Container) : Prop :=
  ∃ held' : Holding, after = layout.container held' ∧ held'.Valid layout ∧
    Patched held held' differ policy delta

theorem transaction_applyCounting {s : Session} (hclosed : s.inTransaction = false)
    (hs : Tileset.Holds ⟨layout.shape, batch⟩ s.file held s)
    (hbatch : Tileset.checkBatch batch = .ok ()) (hsuits : Suits delta differ policy held P) :
    Yields (Action.transaction (applyCounting delta differ policy ⟨layout.shape, batch⟩)) s
      fun _ s' => Outcome layout held differ policy delta s'.contents := by
  have hopen : Tileset.Holds ⟨layout.shape, batch⟩ s.file held { s with inTransaction := true } :=
    ⟨rfl, hs.writable, hs.contents, hs.valid, hs.knows⟩
  refine Action.transaction_spec (Q := fun _ => Outcome layout held differ policy delta) hclosed ?_
  refine ((DeltaSet.applyTo_decides policy hopen hbatch hsuits.hashes hsuits.images hsuits.complete
    hsuits.keys hsuits.written hsuits.texts).yields hsuits.applies).bind ?_
  rintro counters s' ⟨-, held', hs', hpatched⟩
  exact .intro rfl ⟨held', hs'.contents, hs'.valid, hpatched⟩

/-- A patch that applies to a tileset in a file is applied to it in place. -/
theorem body_spec {files : Workspace} {base patch : PathName} {basePlace patchPlace : List String}
    {contents patchContents : Container}
    (hpatchFollow : files.follow patch = .found patchPlace (.container patchContents))
    (hcheck : PatchFile.checkPatch patch.text patchContents = .ok ())
    (hload : PatchFile.load batch patch.text patchContents = .ok delta)
    (hbaseFollow : files.follow base = .found basePlace (.container contents))
    (hcontents : contents = layout.container held) (hvalid : held.Valid layout)
    (hbatch : Tileset.checkBatch batch = .ok ()) (hsuits : Suits delta differ policy held P) :
    Yields (body differ policy batch base patch none) (.start files) fun _ job =>
      ∃ after, Outcome layout held differ policy delta after ∧
        job.files = files.set basePlace (.container after) := by
  refine (Operation.readContainer_spec hpatchFollow).bind ?_
  rintro _ _ ⟨rfl, rfl⟩
  refine (Operation.ofExcept_spec hcheck _).bind ?_
  rintro _ _ ⟨-, rfl⟩
  refine (Operation.ofExcept_spec hload _).bind ?_
  rintro loaded _ ⟨hloaded, rfl⟩
  rw [hloaded]
  refine (Operation.note_spec (R := fun after => after = files) _ rfl).bind fun _ job hjob => ?_
  have hsession (account : Account) :
      Yields (do
        let t ← Tileset.openIn batch
        Action.transaction (applyCounting delta differ policy t))
        { Session.start base.text true contents with account }
        fun _ s => Outcome layout held differ policy delta s.contents := by
    refine (Yields.intro (Q := fun t s => t = ⟨layout.shape, batch⟩ ∧ s =
      { Session.start base.text true contents with account }) (Tileset.openIn_run batch hcontents)
      ⟨rfl, rfl⟩).bind ?_
    rintro _ s ⟨rfl, rfl⟩
    exact transaction_applyCounting rfl ⟨rfl, rfl, hcontents, hvalid, by simp [Session.start]⟩
      hbatch hsuits
  refine (Operation.onExisting_spec (hjob ▸ hbaseFollow) hsession).bind ?_
  rintro _ job' ⟨after, hafter, hfiles⟩
  exact .intro rfl ⟨after, hafter, hfiles.trans (by rw [hjob])⟩

end ApplyPatch

/-! ### Making and applying -/

/-- The payloads of the tiles of a base and a target, and those that a container stores. -/
def involved (base target : List Tile) (contents : Container) : Set Bytes :=
  {data | (∃ tile ∈ base ++ target, data ∈ tile.data) ∨ data ∈ contents.payloads}

theorem hashIs_self (hash : String) : HashIs (some hash) (.text hash) := ⟨hash, rfl, rfl⟩

section Sync

variable {differ : Differ} {patchType : PatchType} {held : Holding} {layout : Layout}
  {target : List Tile} {records : List PatchRecord} {changes : List MetadataChange}

theorem suits_difference (read : PatchType) (policy : MergePolicy) (hdiffer : differ.Restores)
    (hvalid : held.Valid layout) (htarget : Ascending target)
    (htargetFits : ∀ tile ∈ target, tile.key.cells.all Cell.fits = true)
    (hrecords : records.Pairwise fun r s => r.key < s.key)
    (hmem : ∀ record, record ∈ records ↔ Difference differ patchType held.sorted target record)
    (hchanges : Metadata.Listed changes)
    (hmerge : ∃ m, ((Metadata.ofTexts held.metadata).merge policy changes).2 = .ok m)
    (hP : Set.InjOn payloadHash (involved held.sorted target (layout.container held))) :
    ApplyPatch.Suits ⟨.text (aggregateHash held.sorted), .text (aggregateHash target), read,
        changes, .ofList records⟩ differ policy held
        (involved held.sorted target (layout.container held)) ∧
    inOrder (updateTiles differ held.sorted records) = target := by
  have hbase : Ascending held.sorted := ascending_inOrder hvalid.keys
  have hbaseKeys : held.sorted.Pairwise fun a b => a.key ≠ b.key := hbase.imp fun hlt => hlt.ne
  have htargetKeys : target.Pairwise fun a b => a.key ≠ b.key := htarget.imp fun hlt => hlt.ne
  have hbaseP : ∀ tile ∈ held.sorted, ∀ data ∈ tile.data,
      data ∈ involved held.sorted target (layout.container held) := fun tile htile data hdata =>
    .inl ⟨tile, List.mem_append_left _ htile, hdata⟩
  have htargetP : ∀ tile ∈ target, ∀ data ∈ tile.data,
      data ∈ involved held.sorted target (layout.container held) := fun tile htile data hdata =>
    .inl ⟨tile, List.mem_append_right _ htile, hdata⟩
  have hfits : ∀ tile ∈ held.sorted, tile.key.cells.all Cell.fits = true := fun tile htile =>
    hvalid.fits tile (mem_inOrder.1 htile)
  have hresult := updateTiles_difference hdiffer hbase htarget hrecords hmem hP hbaseP htargetP
  refine ⟨⟨hP, fun image himage => .inr (hvalid.mem_payloads himage), rfl, fun record hrecord => ?_,
    fun record hrecord tile htile => ?_, hchanges.texts, ?_⟩, hresult⟩
  · exact (((hmem record).1 hrecord).storable hfits htargetFits).fits
  · exact htargetP tile
      ((((hmem record).1 hrecord).written?_iff hdiffer hbaseKeys htargetKeys tile).1 htile).1
  · refine ⟨hashIs_self _, hrecords, fun record hrecord => ?_, hmerge, ?_⟩
    · exact ((hmem record).1 hrecord).checks hdiffer hbaseKeys
    · show HashIs (some (aggregateHash (inOrder (updateTiles differ held.sorted records)))) _
      rw [hresult]
      exact hashIs_self _

end Sync

/-- Whether a path name leads to a container of some shape with the tiles of a target, their
aggregate hash, and the other metadata of the target. -/
def Workspace.Synced (w : Workspace) (path : PathName) (place : List String) (shape : Shape)
    (tiles : List Tile) (target : Metadata) : Prop :=
  ∃ contents metadata, w.follow path = .found place (.container contents) ∧
    detect path.text contents = .ok shape ∧
    Tileset.scan ⟨shape, 1⟩ .all path.text contents = .ofList tiles ∧
    Tileset.metadata path.text contents = .ok metadata ∧
    ∀ name : String, metadata.get? (.text name) =
      if name = aggHashName then some (.text (aggregateHash tiles))
      else if name = hashBeforeName ∨ name = hashAfterName then none
      else target.get? (.text name)

theorem diffRecords_ofList {differ : Differ} (patchType : PatchType)
    (hdiff : ∀ old new, ∃ delta, differ.diff old new = .ok delta) {base target : List Tile}
    (hbase : Ascending base) (htarget : Ascending target) :
    diffRecords differ patchType (.ofList base) (.ofList target) =
      .ofList (walkRecords differ patchType none none base target).items := by
  have hnone := (failure_walkRecords patchType hdiff none none base target).1.2 ⟨rfl, rfl⟩
  rw [diffRecords_of_ascending hbase htarget]
  exact congrArg (Scan.mk _) hnone

/-- The patch file of a difference is applied to a tileset with the tiles of the base, and the
tileset is that of the target then. -/
theorem applyPatch_synced {differ : Differ} (hdiffer : differ.Restores) {patchType : PatchType}
    {baseTiles targetTiles : List Tile} {records : List PatchRecord}
    {changes : List MetadataChange} {targetMetadata : Metadata} (htarget : Ascending targetTiles)
    (htargetFits : ∀ tile ∈ targetTiles, tile.key.cells.all Cell.fits = true)
    (hrecords : records.Pairwise fun r s => r.key < s.key)
    (hmem : ∀ record, record ∈ records ↔ Difference differ patchType baseTiles targetTiles record)
    (hchanges : Metadata.Listed changes) {policy : MergePolicy} {batch : Int}
    (hbatch : Tileset.checkBatch batch = .ok ()) {files : Workspace} {b patch : PathName}
    {place patchPlace : List String} {t : Tileset} {s : Session} {metadata : Metadata}
    (hpatch : files.follow patch = .found patchPlace (.container (PatchFile.container
      (PatchFile.headerEntries (aggregateHash baseTiles) (aggregateHash targetTiles) patchType
        changes) records)))
    (hb : files.Shows b place t s baseTiles metadata)
    (hmerge : ∃ m, (metadata.merge policy changes).2 = .ok m ∧
      ∀ name : String, isReserved (.text name) = false →
        m.get? (.text name) = targetMetadata.get? (.text name))
    (hP : Set.InjOn payloadHash (involved baseTiles targetTiles s.contents)) :
    (applyPatch differ policy batch b patch none files).succeeded = true ∧
      (applyPatch differ policy batch b patch none files).files.Synced b place t.shape
        targetTiles targetMetadata := by
  have hstorable : ∀ record ∈ records, PatchFile.Storable record := fun record hrecord =>
    ((hmem record).1 hrecord).storable hb.fits htargetFits
  obtain ⟨held, hcontents, hvalid, hshape, rfl, rfl⟩ := hb.holding
  obtain ⟨m, hm, hget⟩ := hmerge
  obtain ⟨read, hload⟩ := PatchFile.load_container hbatch patch.text (aggregateHash held.sorted)
    (aggregateHash targetTiles) patchType hchanges hrecords hstorable
  rw [hcontents] at hP
  obtain ⟨hsuits, hresult⟩ := suits_difference read policy hdiffer hvalid htarget htargetFits
    hrecords hmem hchanges ⟨m, hm⟩ hP
  obtain ⟨hsucceeded, job, ⟨_, ⟨held', rfl, hvalid', hpatched⟩, hjob⟩, hfiles⟩ :=
    runOperation_spec (ApplyPatch.body_spec hpatch (PatchFile.checkPatch_container patch.text _ _)
      hload hb.follow hcontents hvalid hbatch hsuits) "apply-patch" none
  have hsorted : held'.sorted = targetTiles := hpatched.sorted.trans hresult
  refine ⟨hsucceeded, t.shape.layout.container held', .ofTexts held'.metadata, ?_, ?_, ?_,
    Tileset.metadata_container b.text hvalid', fun name => ?_⟩
  · rw [applyPatch, Option.filter_none, hfiles, hjob]
    exact Workspace.follow_set _ (.inl ⟨_, hb.follow, nofun⟩)
  · conv_rhs => rw [hshape]
    exact detect_container b.text t.shape.layout held'
  · rw [← hsorted]
    exact Tileset.scan_container b.text (t := ⟨t.shape, 1⟩) hvalid' rfl
  · rw [Metadata.get?_ofTexts, hpatched.metadata m hm name, hsorted]
    by_cases hname : isReserved (.text name) = false
    · rw [hget name hname]
    · have hthree : name = aggHashName ∨ name = hashBeforeName ∨ name = hashAfterName := by
        simpa [isReserved, reservedNames, or_iff_not_imp_left] using hname
      by_cases hagg : name = aggHashName
      · rw [if_pos hagg, if_pos hagg]
      · have hpatchName := hthree.resolve_left hagg
        rw [if_neg hagg, if_neg hagg, if_pos hpatchName, if_pos hpatchName]

/-- The difference of two tilesets is written to a new file, and applied in place to any tileset
with the tiles and the metadata of the base it leaves the tiles and the metadata of the target. -/
theorem diff_applyPatch {differ : Differ} (hdiffer : differ.Restores) (patchType : PatchType)
    {batch : Int} (hbatch : -0x80000000 ≤ batch ∧ batch < 0x80000000) {files made : Workspace}
    {base target patch : PathName} {basePlace targetPlace place : List String}
    {baseSet targetSet : Tileset} {baseSession targetSession : Session}
    {baseTiles targetTiles : List Tile} {baseMetadata targetMetadata : Metadata}
    (hbase : files.Shows base basePlace baseSet baseSession baseTiles baseMetadata)
    (htarget : files.Shows target targetPlace targetSet targetSession targetTiles targetMetadata)
    (hnew : files.contains patch = false) (hmade : files.makeDirectory patch.parent = .ok made)
    (hvacant : made.follow patch = .vacant place) :
    let outcome := diff differ patchType batch base target patch files
    outcome.succeeded = true ∧
    (∀ path position node, files.follow path = .found position node →
      outcome.files.follow path = .found position node) ∧
    ∃ contents, outcome.files.follow patch = .found place (.container contents) ∧
      ∀ (files' : Workspace) (b patch' : PathName) (bPlace patchPlace : List String) (t : Tileset)
        (s : Session) (metadata : Metadata) (policy : MergePolicy) (batch' : Int),
        -0x80000000 ≤ batch' ∧ batch' < 0x80000000 →
        files'.follow patch' = .found patchPlace (.container contents) →
        files'.Shows b bPlace t s baseTiles metadata →
        (∀ name : String, isReserved (.text name) = false →
          metadata.get? (.text name) = baseMetadata.get? (.text name)) →
        Set.InjOn payloadHash (involved baseTiles targetTiles s.contents) →
        (applyPatch differ policy batch' b patch' none files').succeeded = true ∧
          (applyPatch differ policy batch' b patch' none files').files.Synced b bPlace t.shape
            targetTiles targetMetadata := by
  intro outcome
  obtain ⟨baseHeld, -, hbaseValid, -, -, rfl⟩ := hbase.holding
  obtain ⟨targetHeld, -, htargetValid, -, -, rfl⟩ := htarget.holding
  obtain ⟨changes, hdiff, hlisted, hmerge⟩ :=
    Metadata.diff_ofTexts hbaseValid.names htargetValid.names
  obtain ⟨hmem, hrecords⟩ :=
    walkRecords_spec patchType hdiffer.diff_ok hbase.ascending htarget.ascending
  have hwalk := diffRecords_ofList patchType hdiffer.diff_ok hbase.ascending htarget.ascending
  generalize (walkRecords differ patchType none none baseTiles targetTiles).items = records at *
  have hstorable : ∀ record ∈ records, PatchFile.Storable record := fun record hrecord =>
    ((hmem record).1 hrecord).storable hbase.fits htarget.fits
  have hbatchOk := checkBatch_of_range hbatch
  obtain ⟨hsucceeded, job, hjob, hfiles⟩ := runOperation_spec (Diff.body_spec hbase.follow
    htarget.follow (hbase.reads hbatchOk) (htarget.reads hbatchOk) hbase.metadata htarget.metadata
    hdiff hwalk hlisted hrecords hstorable hnew hmade hvacant) "diff"
    (if files.contains patch then none else some patch)
  have hout : outcome.files = job.files := hfiles
  let contents := PatchFile.container (PatchFile.headerEntries (aggregateHash baseTiles)
    (aggregateHash targetTiles) patchType changes) records
  refine ⟨hsucceeded, fun path position node hfollow => ?_, contents, ?_, ?_⟩
  · rw [hout, hjob]
    have hset := Workspace.follow_set_of_vacant hmade hvacant (.container contents) hfollow
    rw [← hset]
    exact (Workspace.same_set_set (Workspace.ne_nil_of_vacant hvacant)).follow_eq path
  · rw [hout, hjob]
    refine Workspace.follow_set _ (.inl ⟨_, Workspace.follow_set _ (.inr hvacant), nofun⟩)
  · intro files' b patch' bPlace patchPlace t s metadata policy batch' hbatch' hpatch hb hsame hP
    obtain ⟨m, hm, hget⟩ := hmerge policy metadata hsame
    have htexts : ∀ name : String, isReserved (.text name) = false →
        m.get? (.text name) = (Metadata.ofTexts targetHeld.metadata).get? (.text name) := by
      intro name hname
      simp [hget name, hname]
    exact applyPatch_synced hdiffer htarget.ascending htarget.fits hrecords hmem hlisted
      (checkBatch_of_range hbatch') hpatch hb ⟨m, hm, htexts⟩ hP

/-- The patch between two tilesets of different layouts is applied to the first one.  It removes a
tile, changes one by what is to be put at its end, and adds one without a payload. -/
theorem diff_applyPatch_threeTiles :
    let differ : Differ := ⟨fun old new => .ok (.ofList
        (if (Bytes.toList old).isPrefixOf (Bytes.toList new) then
          1 :: (Bytes.toList new).drop (Bytes.toList old).length
        else 0 :: Bytes.toList new)),
      fun old delta => .ok (.ofList (match Bytes.toList delta with
        | 1 :: rest => Bytes.toList old ++ rest
        | rest => rest.drop 1))⟩
    let baseTiles : List Tile := [⟨⟨0, 0, 0⟩, some ⟨#[1, 2, 3]⟩⟩, ⟨⟨1, 0, 0⟩, some ⟨#[7]⟩⟩]
    let targetTiles : List Tile := [⟨⟨0, 0, 0⟩, some ⟨#[1, 2, 3, 4]⟩⟩, ⟨⟨1, 0, 1⟩, none⟩]
    let session (layout : Layout) (file : String) (tiles : List Tile) (name : String) : Session :=
      StoreOperation.runAll ⟨layout.shape, 1⟩
        { Session.start file true .empty with contents := layout.container .empty }
        (.putMetadata "name" (some name) :: tiles.map fun tile => .put tile.key tile.data)
    let base := session .normalized "a" baseTiles "x"
    let target := session .flat "b" targetTiles "y"
    let files : Workspace :=
      ⟨[(["a"], .container base.contents), (["b"], .container target.contents)]⟩
    let made := (diff differ .delta 1 ⟨["a"]⟩ ⟨["b"]⟩ ⟨["p"]⟩ files).files
    let outcome := applyPatch differ .strict 1 ⟨["a"]⟩ ⟨["p"]⟩ none made
    (walkRecords differ .delta none none baseTiles targetTiles).items =
        [.changedBy ⟨0, 0, 0⟩ ⟨#[1, 4]⟩ ⟨#[1, 2, 3, 4]⟩, .removed ⟨1, 0, 0⟩,
          .full .add ⟨⟨1, 0, 1⟩, none⟩] ∧
      (diff differ .delta 1 ⟨["a"]⟩ ⟨["b"]⟩ ⟨["p"]⟩ files).succeeded = true ∧
      outcome.succeeded = true ∧
      outcome.files.Synced ⟨["a"]⟩ ["a"] Layout.normalized.shape targetTiles
        (.ofTexts [("name", "y")]) := by
  intro differ baseTiles targetTiles session base target files made outcome
  have hdiffer : differ.Restores := by
    intro old new
    refine ⟨_, rfl, congrArg Except.ok ?_⟩
    cases hbefore : (Bytes.toList old).isPrefixOf (Bytes.toList new) with
    | false => rfl
    | true =>
        obtain ⟨rest, hrest⟩ := List.isPrefixOf_iff_prefix.1 hbefore
        simp only [if_true, ← hrest, List.drop_left, Bytes.toList_ofList]
        rw [hrest, Bytes.ofList_toList]
  have hreached (layout : Layout) (file : String) (tiles : List Tile) (name : String) :
      Tileset.Reached ⟨layout.shape, 1⟩ (session layout file tiles name) :=
    (Tileset.Reached.start layout 1 file).runAll _
  have hbase : files.Shows ⟨["a"]⟩ ["a"] ⟨Layout.normalized.shape, 1⟩ base baseTiles
      (.ofTexts [("name", "x")]) := ⟨hreached .., rfl, by decide +kernel, by decide +kernel⟩
  have htarget : files.Shows ⟨["b"]⟩ ["b"] ⟨Layout.flat.shape, 1⟩ target targetTiles
      (.ofTexts [("name", "y")]) := ⟨hreached .., rfl, by decide +kernel, by decide +kernel⟩
  have hbatch : -0x80000000 ≤ (1 : Int) ∧ (1 : Int) < 0x80000000 := by decide
  obtain ⟨hdiff, hkept, contents, hpatch, happly⟩ := diff_applyPatch hdiffer .delta hbatch hbase
    htarget (show files.contains ⟨["p"]⟩ = false from rfl) rfl rfl
  have hb : made.Shows ⟨["a"]⟩ ["a"] ⟨Layout.normalized.shape, 1⟩ base baseTiles
      (.ofTexts [("name", "x")]) :=
    ⟨hbase.reached, hkept _ _ _ hbase.follow, hbase.scan, hbase.metadata⟩
  -- three payloads take part, and their hashes differ
  let payloads : List Bytes := [⟨#[1, 2, 3]⟩, ⟨#[7]⟩, ⟨#[1, 2, 3, 4]⟩]
  have hinvolved : ∀ data ∈ involved baseTiles targetTiles base.contents,
      ∃ payload ∈ payloads, data = payload := by
    have htiles : ∀ tile ∈ baseTiles ++ targetTiles, ∀ data ∈ tile.data,
        ∃ payload ∈ payloads, data = payload := by decide
    have hstored : ∀ data ∈ base.contents.payloads, ∃ payload ∈ payloads, data = payload := by
      decide +kernel
    rintro data (⟨tile, htile, hdata⟩ | hdata)
    · exact htiles tile htile data hdata
    · exact hstored data hdata
  have hhash : Set.InjOn payloadHash (involved baseTiles targetTiles base.contents) :=
    injOn_payloadHash hinvolved (by decide +kernel)
  obtain ⟨hsucceeded, hsynced⟩ := happly made ⟨["a"]⟩ ⟨["p"]⟩ ["a"] ["p"] _ _ _ .strict 1 hbatch
    hpatch hb (fun _ _ => rfl) hhash
  exact ⟨by decide +kernel, hdiff, hsucceeded, hsynced⟩

/-- A number of rows to fetch that is no machine integer keeps the patch from being made. -/
theorem not_diff_of_hugeBatch :
    let differ : Differ := ⟨fun _ new => .ok new, fun _ delta => .ok delta⟩
    let files : Workspace := ⟨[(["a"], .container (Layout.flat.container .empty)),
      (["b"], .container (Layout.flat.container .empty))]⟩
    let session (file : String) : Session :=
      { Session.start file true .empty with contents := Layout.flat.container .empty }
    differ.Restores ∧ files.Shows ⟨["a"]⟩ ["a"] ⟨Layout.flat.shape, 1⟩ (session "a") [] .empty ∧
      files.Shows ⟨["b"]⟩ ["b"] ⟨Layout.flat.shape, 1⟩ (session "b") [] .empty ∧
      files.contains ⟨["p"]⟩ = false ∧ files.makeDirectory ⟨[]⟩ = .ok files ∧
      files.follow ⟨["p"]⟩ = .vacant ["p"] ∧
      (diff differ .whole 0x80000000 ⟨["a"]⟩ ⟨["b"]⟩ ⟨["p"]⟩ files).succeeded = false := by
  intro differ files session
  refine ⟨fun _ new => ⟨new, rfl, rfl⟩, ⟨?_, rfl, rfl, rfl⟩, ⟨?_, rfl, rfl, rfl⟩, rfl, rfl, rfl,
    rfl⟩
  · exact Tileset.Reached.start .flat 1 "a"
  · exact Tileset.Reached.start .flat 1 "b"

end TileAtlas
