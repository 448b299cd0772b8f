import TileAtlas.Proofs.Operation.Inversion
import TileAtlas.Proofs.Operation.Sync
import TileAtlas.Proofs.Patch.Twins

/-!
# In place or into a copy

A patch file is applied to its base in place, or to a copy of the base in a new file.  The copy is
made by putting the metadata and the tiles of the base one after the other, so that it holds the
same as the base, and from there on both ways are in step.
-/

namespace TileAtlas

open TileAtlas.Action Tileset

/-! ### The copy -/

section Copy

variable {t : Tileset} {P : Set Bytes} {file : String} {h : Holding} {layout : Layout} {s : Session}
  {batch : Int}

theorem putAllMetadata_spec {entries : List (String × String)} (hs : t.Holds file h s)
    (hnames : (h.metadata ++ entries).Pairwise fun a b => a.1 ≠ b.1) :
    Yields (putAllMetadata (Metadata.ofTexts entries).entries) s fun _ s' =>
      t.Holds file { h with metadata := h.metadata ++ entries } s' := by
  induction entries generalizing h s with
  | nil => exact .pure (by rwa [List.append_nil])
  | cons entry rest ih =>
      refine (putMetadata_spec hs entry.1 (some entry.2)).bind fun _ s₁ hs₁ => ?_
      have hnew : h.putMetadata entry.1 (some entry.2) =
          { h with metadata := h.metadata ++ [entry] } := by
        have hkept : h.metadata.filter (fun old => !decide (old.1 = entry.1)) = h.metadata :=
          List.filter_eq_self.2 fun old hold => by
            have hne := (List.pairwise_append.1 hnames).2.2 old hold entry (List.mem_cons_self ..)
            simpa using hne
        simp only [Holding.putMetadata, Holding.erase, hkept, Option.map_some, Option.toList_some]
      rw [hnew] at hs₁
      rw [List.append_cons] at hnames ⊢
      exact ih hs₁ hnames

/-- The payloads of the tiles are among those that the container stores. -/
theorem Holding.Valid.mem_payloads_of_tile (hvalid : h.Valid layout) {tile : Tile}
    (htile : tile ∈ h.tiles) {data : Bytes} (hdata : data ∈ tile.data) :
    data ∈ (layout.container h).payloads := by
  by_cases hlayout : layout = .normalized
  · exact hvalid.mem_payloads (hvalid.stored hlayout tile htile data hdata)
  · have htable : layout.tilesTable h.tiles ∈ (layout.container h).tables := by
      cases layout with
      | normalized => exact absurd rfl hlayout
      | _ => simp [Layout.container]
    have hcell : Cell.blob data ∈ layout.tileRow tile := by
      have hblob : Cell.ofPayload tile.data = .blob data := by rw [Option.mem_def.1 hdata]; rfl
      cases layout with
      | normalized => exact absurd rfl hlayout
      | _ => simp [Layout.tileRow, hblob]
    refine List.mem_flatMap.2 ⟨_, htable, List.mem_filterMap.2 ⟨.blob data, ?_, rfl⟩⟩
    exact List.mem_flatten.2 ⟨_, List.mem_map.2 ⟨tile, htile, rfl⟩, hcell⟩

namespace ApplyPatch

/-- The copy of a base starts with its metadata. -/
theorem createIn_metadata (layout : Layout) (batch : Int) (P : Set Bytes)
    (hempty : s.contents = .empty) (hwritable : s.writable = true)
    {metadata : List (String × String)} (hnames : metadata.Pairwise fun a b => a.1 ≠ b.1) :
    ∃ s₁ s₂, createIn layout batch s = .ok ⟨layout.shape, batch⟩ s₁ ∧
      putAllMetadata (Metadata.ofTexts metadata).entries s₁ = .ok () s₂ ∧
      Keeps ⟨layout.shape, batch⟩ P (metadata.map Layout.metadataRow) [] s₂ ∧
      s₂.label = s.label := by
  have hcreate := createIn_run layout batch hempty hwritable
  have hs₁ : Holds ⟨layout.shape, batch⟩ s.file .empty
      { s with contents := layout.container .empty, images := none } :=
    ⟨rfl, hwritable, rfl, Holding.valid_empty layout, by simp⟩
  obtain ⟨_, s₂, hrun, hs₂, hlabel⟩ := (putAllMetadata_spec hs₁ hnames).and_leaves
    (preserves_putAllMetadata Session.apart_label _ _)
  exact ⟨_, s₂, hcreate, hrun, ⟨_, hs₂.besideMetadata, .refl _, by simp [Holding.empty]⟩, hlabel⟩

/-- The copy of a base holds what the base holds. -/
theorem copyBase_spec (hempty : s.contents = .empty) (hwritable : s.writable = true)
    (hvalid : h.Valid layout) (hbatch : checkBatch batch = .ok ()) (hP : Set.InjOn payloadHash P)
    (hdata : ∀ tile ∈ h.tiles, ∀ data ∈ tile.data, data ∈ P) :
    Yields (copyBase layout batch (.ok (.ofTexts h.metadata)) (.ofList h.sorted)) s fun t s' =>
      t = ⟨layout.shape, batch⟩ ∧
        t.Keeps P (h.metadata.map Layout.metadataRow) h.sorted s' ∧ s'.label = s.label := by
  obtain ⟨s₁, s₂, hcreate, hmetadata, hs₂, hlabel₂⟩ :=
    createIn_metadata layout batch P hempty hwritable hvalid.names
  have hkeys : h.sorted.Pairwise fun a b => a.key ≠ b.key :=
    (ascending_inOrder hvalid.keys).imp fun hab => hab.ne
  obtain ⟨_, s₃, htiles, hs₃, hlabel₃⟩ := (hs₂.putAll h.sorted hbatch hP hkeys
    (fun tile htile => hvalid.fits tile (mem_inOrder.1 htile))
    fun tile htile => hdata tile (mem_inOrder.1 htile)).and_leaves
      (preserves_putAll Session.apart_label _ _)
  refine ⟨⟨layout.shape, batch⟩, s₃, ?_, rfl, hs₃, hlabel₃.trans hlabel₂⟩
  simp only [copyBase, bind_apply, hcreate, ofExcept_ok rfl, hmetadata, Scan.ofList, htiles,
    Scan.all, pure_apply]

/-- A base whose tiles cannot be read is not copied. -/
theorem copyBase_error (layout : Layout) (batch : Int) (hempty : s.contents = .empty)
    (hwritable : s.writable = true)
    {metadata : List (String × String)} (hnames : metadata.Pairwise fun a b => a.1 ≠ b.1)
    (failure : Failure) :
    ∃ s', copyBase layout batch (.ok (.ofTexts metadata)) (.fail failure) s = .error failure s' ∧
      s'.label = s.label := by
  obtain ⟨s₁, s₂, hcreate, hmetadata, -, hlabel⟩ :=
    createIn_metadata layout batch ∅ hempty hwritable hnames
  refine ⟨s₂, ?_, hlabel⟩
  simp only [copyBase, bind_apply, hcreate, ofExcept_ok rfl, hmetadata, Scan.fail, putAll,
    Scan.all, pure_apply, ofExcept_error rfl]

end ApplyPatch

end Copy

/-! ### Work in transactions and on files -/

section Transaction

variable {α β : Type} {file file' : String} {x : Action α} {y : Action β} {s s' : Session}
  {Q : α → β → Session → Session → Prop}

theorem transaction_inStep (hclosed : s.inTransaction = false) (hclosed' : s'.inTransaction = false)
    (h : InStep file file' x y { s with inTransaction := true } { s' with inTransaction := true } Q
      Session.SameReport) :
    InStep file file' (transaction x) (transaction y) s s' (fun a b u u' => ∃ v v', Q a b v v' ∧
      u = { v with inTransaction := false } ∧ u' = { v' with inTransaction := false })
      Session.SameReport := by
  unfold InStep transaction at *
  rw [hclosed, hclosed', if_neg Bool.false_ne_true, if_neg Bool.false_ne_true]
  generalize x { s with inTransaction := true } = r, y { s' with inTransaction := true } = r' at h
  cases h with
  | ok h => exact .ok ⟨_, _, h, rfl, rfl⟩
  | error halike h => exact .error halike h

end Transaction

namespace ApplyPatch

variable {P : Set Bytes} {h : Holding} {layout : Layout} {s s' : Session} {batch : Int}
  {delta : DeltaSet} {differ : Differ} {policy : MergePolicy} {t : Tileset} {file file' : String}
  {rows : List Row} {tiles : List Tile}

theorem applyCounting_inStep (hs : t.Twins P file file' rows tiles s s')
    (hbatch : checkBatch t.batch = .ok ()) (hP : Set.InjOn payloadHash P)
    (hwritten : ∀ data, delta.Writes differ tiles data → data ∈ P) :
    InStep file file' (applyCounting delta differ policy t) (applyCounting delta differ policy t)
      s s' (fun _ _ u u' => ∃ rows tiles, t.Twins P file file' rows tiles u u')
      Session.SameReport := by
  refine (DeltaSet.applyTo_inStep policy hs hbatch hP hwritten).bind ?_
  rintro counters _ s₁ s₁' ⟨rfl, rows, tiles, hs₁⟩
  exact (note_inStep hs₁ _).mono (fun _ _ _ _ hu => ⟨rows, tiles, hu⟩) fun _ _ h => h

/-- Applying a patch to what a container holds, and applying it to a copy of that, are in step. -/
theorem applyCounting_copyBase_inStep (policy : MergePolicy)
    (hs : Holds ⟨layout.shape, batch⟩ s.file h s) (hreport : s.SameReport s')
    (hempty : s'.contents = .empty) (hwritable : s'.writable = true)
    (hP : Set.InjOn payloadHash P) (hstored : ∀ data ∈ (layout.container h).payloads, data ∈ P)
    (hwritten : ∀ data, delta.Writes differ h.sorted data → data ∈ P) (base : String) :
    InStep s.file s'.file (applyCounting delta differ policy ⟨layout.shape, batch⟩)
      (do
        let t ← copyBase layout batch (Tileset.metadata base (layout.container h))
          (Tileset.scan ⟨layout.shape, batch⟩ .all base (layout.container h))
        applyCounting delta differ policy t) s s'
      (fun _ _ u u' => ∃ rows tiles,
        Twins ⟨layout.shape, batch⟩ P s.file s'.file rows tiles u u') Session.SameReport := by
  have hvalid : h.Valid layout := hs.valid
  rw [metadata_container base hvalid]
  cases hbatch : checkBatch batch with
  | ok _ =>
      have hscan : Tileset.scan ⟨layout.shape, batch⟩ .all base (layout.container h) =
          .ofList h.sorted := scan_container (t := ⟨layout.shape, batch⟩) base hvalid hbatch
      rw [hscan]
      have hpayloads : ∀ tile ∈ h.tiles, ∀ data ∈ tile.data, data ∈ P :=
        fun tile htile data hdata => hstored data (hvalid.mem_payloads_of_tile htile hdata)
      refine .bind_yields (copyBase_spec hempty hwritable hvalid hbatch hP hpayloads) ?_
      rintro _ s₁ ⟨rfl, hs₁, hlabel⟩
      obtain ⟨hfile, haccount, hnotices⟩ := by
        simpa only [Session.label, Prod.mk.injEq] using hlabel
      have htwins : Twins ⟨layout.shape, batch⟩ P s.file s'.file _ _ s s₁ :=
        ⟨⟨h, hs.besideMetadata, (sortBy_perm _ _).symm, fun image himage =>
          hstored image (hvalid.mem_payloads himage)⟩, hs₁, rfl, hfile,
          hreport.1.trans haccount.symm, hreport.2.trans hnotices.symm⟩
      exact applyCounting_inStep htwins hbatch hP hwritten
  | error failure =>
      have hscan : Tileset.scan ⟨layout.shape, batch⟩ .all base (layout.container h) =
          .fail failure := scan_error (t := ⟨layout.shape, batch⟩) base hvalid hbatch
      have haggregate : query (Tileset.aggregate ⟨layout.shape, batch⟩) s = .error failure s :=
        query_error (by
          rw [hs.contents]
          exact aggregate_error s.file hvalid hbatch)
      rw [hscan]
      obtain ⟨s₁, hrun, hlabel⟩ := copyBase_error layout batch hempty hwritable hvalid.names
        failure
      obtain ⟨-, haccount, hnotices⟩ := by
        simpa only [Session.label, Prod.mk.injEq] using hlabel
      have hfailed : applyCounting delta differ policy ⟨layout.shape, batch⟩ s =
          .error failure s := by
        simp only [applyCounting, DeltaSet.applyTo, bind_apply, haggregate]
      exact .of_error hfailed (by rw [bind_apply, hrun])
        ⟨hreport.1.trans haccount.symm, hreport.2.trans hnotices.symm⟩

/-- The work that applies a patch to a base in place. -/
def applyInPlace (delta : DeltaSet) (differ : Differ) (policy : MergePolicy) (batch : Int) :
    Action Unit := do
  let t ← openIn batch
  transaction (applyCounting delta differ policy t)

/-- The work that applies a patch to a copy of a base. -/
def applyToCopy (delta : DeltaSet) (differ : Differ) (policy : MergePolicy) (batch : Int)
    (base : String) (contents : Container) : Action Unit := do
  let shape ← Action.ofExcept (detect base contents)
  let source : Tileset := ⟨shape, batch⟩
  transaction do
    let t ← copyBase shape.layout batch (Tileset.metadata base contents)
      (source.scan .all base contents)
    applyCounting delta differ policy t

theorem applyToCopy_inStep (policy : MergePolicy) (batch : Int) (s s' : Session)
    (hcontents : s.contents = layout.container h) (hvalid : h.Valid layout)
    (hwritable : s.writable = true) (hclosed : s.inTransaction = false)
    (hempty : s'.contents = .empty) (hwritable' : s'.writable = true)
    (hclosed' : s'.inTransaction = false) (hreport : s.SameReport s')
    (hP : Set.InjOn payloadHash P) (hstored : ∀ data ∈ (layout.container h).payloads, data ∈ P)
    (hwritten : ∀ data, delta.Writes differ h.sorted data → data ∈ P) (base : String) :
    InStep s.file s'.file (applyInPlace delta differ policy batch)
      (applyToCopy delta differ policy batch base (layout.container h)) s s'
      (fun _ _ u u' => ∃ rows tiles,
        Twins ⟨layout.shape, batch⟩ P s.file s'.file rows tiles u u') Session.SameReport := by
  have hdetect : detect base (layout.container h) = .ok layout.shape :=
    detect_container base layout h
  refine .yields_bind (P := fun t s₁ => t = ⟨layout.shape, batch⟩ ∧ s₁ = { s with images := none })
    (.intro (openIn_run batch hcontents) ⟨rfl, rfl⟩) ?_
  rintro _ _ ⟨rfl, rfl⟩
  refine .bind_yields (ofExcept_spec hdetect s') ?_
  rintro _ s' ⟨rfl, rfl⟩
  have hopen : Holds ⟨layout.shape, batch⟩ s.file h
      { s with images := none, inTransaction := true } :=
    ⟨rfl, hwritable, hcontents, hvalid, by simp⟩
  have hreport : Session.SameReport { s with images := none, inTransaction := true }
      { s' with inTransaction := true } := hreport
  have hinside := applyCounting_copyBase_inStep policy hopen hreport hempty hwritable' hP hstored
    hwritten base
  refine (transaction_inStep (s := { s with images := none }) hclosed hclosed' hinside).mono ?_
    fun _ _ h => h
  rintro _ _ _ _ ⟨v, v', ⟨rows, tiles, hv⟩, rfl, rfl⟩
  exact ⟨rows, tiles, hv.left.of_eq rfl rfl rfl, hv.right.of_eq rfl rfl rfl, hv.file_left,
    hv.file_right, hv.report⟩

end ApplyPatch

namespace Operation

variable {α β : Type} {file file' : String} {place place' : List String} {job job' : Job}
  {path : PathName}

theorem work_inStep (place place' : List String) (job job' : Job) {session session' : Session}
    {body : Action α} {body' : Action β} {Q : α → β → Session → Session → Prop} {E : Session → Session → Prop}
    (h : InStep file file' body body' { session with account := job.account }
      { session' with account := job'.account } Q E) :
    InStep file file' (work place session body) (work place' session' body') job job'
      (fun a b j j' => ∃ u u', Q a b u u' ∧ j = closed place job u ∧ j' = closed place' job' u')
      fun j j' => ∃ u u', E u u' ∧ j = closed place job u ∧ j' = closed place' job' u' := by
  unfold InStep work at *
  generalize body { session with account := job.account } = r,
    body' { session' with account := job'.account } = r' at h
  cases h with
  | ok h => exact .ok ⟨_, _, h, rfl, rfl⟩
  | error halike h => exact .error halike ⟨_, _, h, rfl, rfl⟩

theorem onExisting_of_follow {writable : Bool} {contents : Container}
    (hfollow : job.files.follow path = .found place (.container contents)) (body : Action α) :
    onExisting path writable body job =
      work place (.start path.text writable contents) body job := by
  simp only [onExisting, bind_apply, get_apply, openExisting_of_follow hfollow]
  rfl

/-- Work that leaves the files alone is in step with itself. -/
theorem Stays.inStep {x : Operation α} (hx : Stays x) (job : Job) :
    InStep file file' x x job job
      (fun a b j j' => x job = .ok a j ∧ a = b ∧ j = j' ∧ j.files = job.files)
      fun j j' => j = j' ∧ j.files = job.files := by
  have hstays := hx job
  unfold Leaves Ends at hstays
  unfold InStep
  cases hrun : x job with
  | ok a j =>
      rw [hrun] at hstays
      exact .ok ⟨rfl, rfl, rfl, hstays⟩
  | error failure j =>
      rw [hrun] at hstays
      exact .error (.same failure) ⟨rfl, hstays⟩

end Operation

/-- Whether a path name leads to a container that a patch is read from. -/
def Workspace.Delivers (w : Workspace) (path : PathName) (batch : Int) (delta : DeltaSet) : Prop :=
  ∃ place contents, w.follow path = .found place (.container contents) ∧
    PatchFile.load batch path.text contents = .ok delta

/-- Two path names lead to different places if one leads to what the other does not lead to. -/
theorem Workspace.sameEntry_eq_false {w : Workspace} {path other : PathName} {place : List String}
    {node : Node} (hfollow : w.follow path = .found place node)
    (hother : w.follow other ≠ .found place node) : w.sameEntry path other = false := by
  unfold sameEntry
  rw [hfollow]
  cases hfound : w.follow other with
  | found position found =>
      refine decide_eq_false ?_
      rintro rfl
      have hnode := (node?_of_found hfollow).symm.trans (node?_of_found hfound)
      rw [hfound, Option.some.inj hnode] at hother
      exact hother rfl
  | _ => rfl

namespace PatchFile

/-- No tileset of the library is taken for a patch. -/
theorem isPatch_container (layout : Layout) (h : Holding) :
    isPatch (layout.container h) = .ok false := by
  cases layout <;> rfl

theorem records_of_load {batch : Int} {file : String} {c : Container} {delta : DeltaSet}
    (h : load batch file c = .ok delta) : delta.records = scanRecords batch file c := by
  unfold load at h
  cases hheader : readHeader file c with
  | error failure =>
      rw [hheader] at h
      cases h
  | ok header =>
      rw [hheader] at h
      cases h
      rfl

end PatchFile

namespace ApplyPatch

variable {P : Set Bytes} {h : Holding} {layout : Layout} {batch : Int} {delta : DeltaSet}
  {differ : Differ} {policy : MergePolicy} {base patch destination : PathName}
  {basePlace place : List String} {made : Workspace}

/-- How the jobs end that have applied a patch in place and into a copy. -/
def Applied (layout : Layout) (P : Set Bytes) (batch : Int) (base destination : PathName)
    (files made : Workspace) (basePlace place : List String) (job job' : Job) : Prop :=
  ∃ rows tiles u u', Twins ⟨layout.shape, batch⟩ P base.text destination.text rows tiles u u' ∧
    job.files = files.set basePlace (.container u.contents) ∧
    job'.files = (made.set place (.container .empty)).set place (.container u'.contents) ∧
    job.account = job'.account ∧ job.details = job'.details

/-- How the jobs end that have failed to do so: nothing keeps the destination from being removed. -/
def Undone (destination : PathName) (job job' : Job) : Prop :=
  job.account = job'.account ∧ ∃ kept, job'.files.discard destination = .ok kept

theorem ways_inStep (policy : MergePolicy) {job : Job}
    (hfollow : job.files.follow base = .found basePlace (.container (layout.container h)))
    (hvalid : h.Valid layout) (hnew : job.files.contains destination = false)
    (hmade : job.files.makeDirectory destination.parent = .ok made)
    (hvacant : made.follow destination = .vacant place)
    (hentry : job.files.sameEntry base patch = false) (hP : Set.InjOn payloadHash P)
    (hstored : ∀ data ∈ (layout.container h).payloads, data ∈ P)
    (hwritten : ∀ data, delta.Writes differ h.sorted data → data ∈ P) :
    InStep base.text destination.text (inPlace delta differ policy batch base)
      (intoCopy delta differ policy batch base patch destination) job job
      (fun _ _ => Applied layout P batch base destination job.files made basePlace place)
      (Undone destination) := by
  have hleft : inPlace delta differ policy batch base job =
      Operation.work basePlace (.start base.text true (layout.container h))
        (applyInPlace delta differ policy batch) job :=
    Operation.onExisting_of_follow hfollow _
  have hread := Operation.openExisting_of_follow hfollow
  have hright : intoCopy delta differ policy batch base patch destination job =
      Operation.work place (.start destination.text true .empty)
        (applyToCopy delta differ policy batch base.text (layout.container h))
        { job with files := made.set place (.container .empty) } := by
    rw [← Operation.onCreated_of_open (Workspace.openCreating_of_vacant hmade hvacant)]
    simp only [intoCopy, bind_apply, get_apply, hnew, hentry, Bool.false_eq_true, if_false,
      Operation.readContainer, hread]
    rfl
  have hbodies := applyToCopy_inStep policy batch
    { Session.start base.text true (layout.container h) with account := job.account }
    { Session.start destination.text true .empty with account := job.account }
    rfl hvalid rfl rfl rfl rfl rfl ⟨rfl, rfl⟩ hP hstored hwritten base.text
  have hwork := Operation.work_inStep basePlace place job
    { job with files := made.set place (.container .empty) } hbodies
  unfold InStep at hwork ⊢
  rw [hleft, hright]
  refine InStep.mono hwork ?_ ?_
  · rintro _ _ _ _ ⟨u, u', ⟨rows, tiles, hu⟩, rfl, rfl⟩
    exact ⟨rows, tiles, u, u', hu, rfl, rfl, hu.report.1, rfl⟩
  · rintro _ _ ⟨u, u', hreport, rfl, rfl⟩
    obtain ⟨kept, hkept, -⟩ := Workspace.discard_of_vacant hvacant
      (Workspace.same_set_set (Workspace.ne_nil_of_vacant hvacant))
    exact ⟨hreport.1, kept, hkept⟩

/-- What is done before a patch is applied. -/
def readPatch (batch : Int) (patch : PathName) : Operation DeltaSet := do
  let contents ← Operation.readContainer patch
  Operation.ofExcept (PatchFile.checkPatch patch.text contents)
  let delta ← Operation.ofExcept (PatchFile.load batch patch.text contents)
  Operation.note fun account => { account with metadataChanges := delta.metadataChanges.length }
  return delta

theorem stays_readPatch (batch : Int) (patch : PathName) : (readPatch batch patch).Stays :=
  (Operation.stays_readContainer patch).bind fun _ => (Operation.stays_ofExcept _).bind fun _ =>
    (Operation.stays_ofExcept _).bind fun _ => (Operation.passes_note _).stays.bind fun _ =>
      Operation.stays_pure _

/-- A patch that is read is no tileset of the library. -/
theorem readPatch_eq_ok {job job' : Job} (h : readPatch batch patch job = .ok delta job') :
    job.files.Delivers patch batch delta ∧ ∀ place contents,
      job.files.follow patch = .found place (.container contents) →
      PatchFile.checkPatch patch.text contents = .ok () := by
  simp only [readPatch, Operation.readContainer_bind_eq_ok, Operation.ofExcept_bind_eq_ok] at h
  obtain ⟨place, contents, hfollow, ⟨⟩, hcheck, delta', hload, hnote⟩ := h
  obtain rfl : delta' = delta := by
    cases hnote
    rfl
  refine ⟨⟨place, contents, hfollow, hload⟩, fun place' contents' hfollow' => ?_⟩
  obtain ⟨-, rfl⟩ := Workspace.follow_container_inj hfollow hfollow'
  exact hcheck

theorem body_inStep (policy : MergePolicy) {files : Workspace}
    (hfollow : files.follow base = .found basePlace (.container (layout.container h)))
    (hvalid : h.Valid layout) (hnew : files.contains destination = false)
    (hmade : files.makeDirectory destination.parent = .ok made)
    (hvacant : made.follow destination = .vacant place)
    (hhash : ∀ delta, files.Delivers patch batch delta → Set.InjOn payloadHash
      {data | data ∈ (layout.container h).payloads ∨ delta.Writes differ h.sorted data}) :
    InStep base.text destination.text (body differ policy batch base patch none)
      (body differ policy batch base patch (some destination)) (.start files) (.start files)
      (fun _ _ job job' => ∃ P, Applied layout P batch base destination files made basePlace place
        job job') (Undone destination) := by
  have hinPlace : body differ policy batch base patch none = (do
      let delta ← readPatch batch patch
      inPlace delta differ policy batch base
      Operation.note fun account => { account with aggHash := delta.after }) := by
    simp only [body, readPatch, bind_assoc, pure_bind]
  have hintoCopy : body differ policy batch base patch (some destination) = (do
      let delta ← readPatch batch patch
      intoCopy delta differ policy batch base patch destination
      Operation.note fun account => { account with aggHash := delta.after }) := by
    simp only [body, readPatch, bind_assoc, pure_bind]
  rw [hinPlace, hintoCopy]
  refine ((stays_readPatch batch patch).inStep _).mono (fun _ _ _ _ h => h) ?_ |>.bind ?_
  · rintro job _ ⟨rfl, hfiles⟩
    refine ⟨rfl, files, ?_⟩
    rw [hfiles]
    exact Workspace.discard_of_not_contains hnew
  · rintro delta _ job _ ⟨hread, rfl, rfl, hfiles⟩
    obtain ⟨hdelivers, hcheck⟩ := readPatch_eq_ok hread
    have hentry : files.sameEntry base patch = false := by
      refine Workspace.sameEntry_eq_false hfollow fun hsame => ?_
      have herror : PatchFile.checkPatch patch.text (layout.container h) =
          .error (.schema (.notAPatch patch.text)) := by
        rw [PatchFile.checkPatch, PatchFile.isPatch_container]
        rfl
      cases (hcheck _ _ hsame).symm.trans herror
    have hfiles : files = job.files := hfiles.symm
    subst hfiles
    refine (ways_inStep policy hfollow hvalid hnew hmade hvacant hentry
      (hhash delta hdelivers) (fun data => .inl) fun data => .inr).bind ?_
    rintro _ _ job₁ job₁' ⟨rows, tiles, u, u', hu, hleft, hright, haccount, hdetails⟩
    exact .modify ⟨_, rows, tiles, u, u', hu, hleft, hright, by simp only [haccount], hdetails⟩

end ApplyPatch

/-- What is held is read in ascending order, whatever number of rows is fetched at once. -/
theorem Tileset.Keeps.reads {layout : Layout} {batch : Int} {P : Set Bytes} {rows : List Row}
    {tiles : List Tile} {s : Session} (hs : Keeps ⟨layout.shape, batch⟩ P rows tiles s)
    (file : String) {readBatch : Int} (hbatch : checkBatch readBatch = .ok ()) :
    Reads file s.contents layout.shape readBatch (inOrder tiles) := by
  obtain ⟨h, hs, hperm, -⟩ := hs
  have hvalid : h.Valid layout := hs.valid
  rw [hs.contents, ← inOrder_eq_of_perm hperm hvalid.keys]
  exact ⟨Layout.detect_containerWith _ _ _ _,
    scan_containerWith (t := ⟨layout.shape, readBatch⟩) _ hvalid hbatch,
    aggregate_containerWith (t := ⟨layout.shape, readBatch⟩) _ hvalid hbatch⟩

/-- An operation on a file that is there and one that makes a file, if their bodies are in step and
nothing keeps what has been made from being removed, end alike. -/
theorem runOperation_inStep {body body' : Operation Unit} {files : Workspace} {file file' : String}
    {path : PathName} {Q : Unit → Unit → Job → Job → Prop}
    (h : InStep file file' body body' (.start files) (.start files) Q (ApplyPatch.Undone path))
    (operation : String) :
    (∃ job job', Q () () job job' ∧ runOperation operation none body files =
        ⟨job.files, job.notices, .ok ⟨operation, none, job.account, job.details⟩⟩ ∧
      runOperation operation (some path) body' files =
        ⟨job'.files, job'.notices, .ok ⟨operation, none, job'.account, job'.details⟩⟩) ∨
    ∃ failure failure' account, failure.Alike file file' failure' ∧
      (runOperation operation none body files).result = failureResult operation failure account ∧
      (runOperation operation (some path) body' files).result =
        failureResult operation failure' account := by
  unfold InStep at h
  unfold runOperation
  generalize body (.start files) = r, body' (.start files) = r' at h
  cases h with
  | @ok _ _ job job' h => exact .inl ⟨job, job', h, rfl, rfl⟩
  | @error failure failure' job job' halike h =>
      obtain ⟨haccount, kept, hkept⟩ := h
      refine .inr ⟨failure, failure', job.account, halike, rfl, ?_⟩
      simp only [removeCreated, hkept, haccount]

/-- A patch, in whatever state it is, is applied to a tileset of the library in place if and only if
it is applied to a copy in a new file.  Then both have the same layout, tiles and metadata, and the
results are the same.  Otherwise the failures are the same but for the file that is named when a
statement has failed. -/
theorem applyPatch_twoWays (differ : Differ) (policy : MergePolicy) (batch : Int)
    {files made : Workspace} {base patch destination : PathName} {basePlace place : List String}
    {t : Tileset} {s : Session} {tiles : List Tile} {metadata : Metadata}
    (hbase : files.Shows base basePlace t s tiles metadata)
    (hnew : files.contains destination = false)
    (hmade : files.makeDirectory destination.parent = .ok made)
    (hvacant : made.follow destination = .vacant place)
    (hhash : ∀ delta, files.Delivers patch batch delta → Set.InjOn payloadHash
      {data | data ∈ s.contents.payloads ∨ delta.Writes differ tiles data}) :
    let updated := applyPatch differ policy batch base patch none files
    let copied := applyPatch differ policy batch base patch (some destination) files
    updated.succeeded = copied.succeeded ∧
    (updated.succeeded = true → updated.result = copied.result ∧
      ∃ after after' tiles' metadata',
        updated.files.follow base = .found basePlace (.container after) ∧
        copied.files.follow destination = .found place (.container after') ∧
        (∀ batch : Int, -0x80000000 ≤ batch ∧ batch < 0x80000000 →
          Reads base.text after t.shape batch tiles' ∧
          Reads destination.text after' t.shape batch tiles') ∧
        Tileset.metadata base.text after = .ok metadata' ∧
        Tileset.metadata destination.text after' = .ok metadata') ∧
    (updated.succeeded = false → ∃ failure failure' account,
      failure.Alike base.text destination.text failure' ∧
      updated.result = failureResult "apply-patch" failure account ∧
      copied.result = failureResult "apply-patch" failure' account) := by
  intro updated copied
  obtain ⟨h, hcontents, hvalid, hshape, rfl, rfl⟩ := hbase.holding
  have hfollow := hbase.follow
  rw [hcontents] at hfollow hhash
  have hbodies := ApplyPatch.body_inStep policy hfollow hvalid hnew hmade hvacant hhash
  have hcopied : copied = runOperation "apply-patch" (some destination)
      (ApplyPatch.body differ policy batch base patch (some destination)) files := by
    show applyPatch differ policy batch base patch (some destination) files = _
    rw [applyPatch, Option.filter_some, hnew]
    rfl
  rcases runOperation_inStep hbodies "apply-patch" with
    ⟨job, job', ⟨P, rows, tiles, u, u', hu, hfiles, hfiles', haccount, hdetails⟩, hrun, hrun'⟩ |
    ⟨failure, failure', account, halike, hresult, hresult'⟩
  · have hupdated : updated = _ := hrun
    rw [hupdated, hcopied, hrun']
    refine ⟨rfl, fun _ => ⟨by rw [haccount, hdetails], u.contents, u'.contents, inOrder tiles,
      Layout.readMetadata rows, ?_, ?_, fun readBatch hrange => ?_, ?_, ?_⟩,
      fun hfailed => by cases hfailed⟩
    · rw [hfiles]
      exact Workspace.follow_set _ (.inl ⟨_, hfollow, Node.container_ne_directory _⟩)
    · rw [hfiles']
      have hcreated : (made.set place (.container .empty)).follow destination =
          .found place (.container .empty) := Workspace.follow_set _ (.inr hvacant)
      exact Workspace.follow_set _ (.inl ⟨_, hcreated, Node.container_ne_directory _⟩)
    · rw [hshape]
      have hbatch := checkBatch_of_range hrange
      exact ⟨hu.left.reads _ hbatch, hu.right.reads _ hbatch⟩
    · exact hu.left.metadata_eq _
    · exact hu.right.metadata_eq _
  · have hupdated : updated.result = _ := hresult
    rw [← hcopied] at hresult'
    rw [not_succeeded_of_failureResult hupdated, not_succeeded_of_failureResult hresult']
    exact ⟨rfl, fun h => absurd h Bool.false_ne_true, fun _ =>
      ⟨failure, failure', account, halike, hupdated, hresult'⟩⟩

/-- A patch that changes a tile, removes one and adds one is applied in either way. -/
theorem applyPatch_twoWays_threeRecords :
    let tiles : List Tile := [⟨⟨0, 0, 0⟩, some ⟨#[1, 2, 3]⟩⟩, ⟨⟨1, 0, 0⟩, some ⟨#[7]⟩⟩]
    let base := StoreOperation.runAll ⟨Layout.normalized.shape, 1⟩
      { Session.start "a" true .empty with contents := Layout.normalized.container .empty }
      (tiles.map fun tile => .put tile.key tile.data)
    let records : List PatchRecord := [
      .changedBy ⟨0, 0, 0⟩ ⟨#[0x41, 0x46, 0, 0, 0, 3, 0, 0, 0, 0, 4]⟩ ⟨#[1, 2, 3, 4]⟩,
      .removed ⟨1, 0, 0⟩, .full .add ⟨⟨1, 0, 1⟩, some ⟨#[9]⟩⟩]
    let patch := PatchFile.container (PatchFile.headerEntries "ADB970EBF783DB3B231BCCD951EBCF19"
      "3B3544448B100BF41F71ECEB6AB6537D" .delta [.add (.text "name") (.text "sea")]) records
    let files : Workspace := ⟨[(["a"], .container base.contents), (["p"], .container patch)]⟩
    let way (destination : Option PathName) : Outcome :=
      applyPatch .affix .strict 1 ⟨["a"]⟩ ⟨["p"]⟩ destination files
    (way none).succeeded = true ∧ (way (some ⟨["d"]⟩)).succeeded = true ∧
      (way none).result = (way (some ⟨["d"]⟩)).result ∧ ∃ after after' tiles',
        (way none).files.follow ⟨["a"]⟩ = .found ["a"] (.container after) ∧
        (way (some ⟨["d"]⟩)).files.follow ⟨["d"]⟩ = .found ["d"] (.container after') ∧
        Reads "a" after Layout.normalized.shape 1 tiles' ∧
        Reads "d" after' Layout.normalized.shape 1 tiles' := by
  intro tiles base records patch files way
  have hbase : files.Shows ⟨["a"]⟩ ["a"] ⟨Layout.normalized.shape, 1⟩ base tiles .empty :=
    ⟨(Tileset.Reached.start .normalized 1 "a").runAll _, rfl, by decide +kernel, by decide +kernel⟩
  -- four payloads take part, and their hashes differ
  let payloads : List Bytes := [⟨#[1, 2, 3]⟩, ⟨#[7]⟩, ⟨#[1, 2, 3, 4]⟩, ⟨#[9]⟩]
  have hstored : ∀ data ∈ base.contents.payloads, ∃ payload ∈ payloads, data = payload := by
    decide +kernel
  have hwritten : ∀ record ∈ (PatchFile.scanRecords 1 "p" patch).items,
      ∀ tile ∈ record.written? .affix tiles, ∀ data ∈ tile.data,
        ∃ payload ∈ payloads, data = payload := by decide +kernel
  have hhash : ∀ delta, files.Delivers ⟨["p"]⟩ 1 delta → Set.InjOn payloadHash
      {data | data ∈ base.contents.payloads ∨ delta.Writes .affix tiles data} := by
    rintro delta ⟨place, contents, hfollow, hdelta⟩
    obtain ⟨-, rfl⟩ := Workspace.follow_container_inj hfollow
      (show files.follow ⟨["p"]⟩ = .found ["p"] (.container patch) from rfl)
    refine @injOn_payloadHash _ payloads ?_ (by decide +kernel)
    rintro data (hdata | ⟨record, hrecord, tile, htile, hdata⟩)
    · exact hstored data hdata
    · rw [PatchFile.records_of_load hdelta] at hrecord
      exact hwritten record hrecord tile htile data hdata
  have hsucceeded : (way none).succeeded = true := by decide +kernel
  obtain ⟨hways, hagree, -⟩ := applyPatch_twoWays .affix .strict 1 hbase
    (show files.contains ⟨["d"]⟩ = false from rfl) rfl rfl hhash
  obtain ⟨hresult, after, after', tiles', _, hafter, hafter', hreads, -⟩ := hagree hsucceeded
  obtain ⟨hread, hread'⟩ := hreads 1 (by decide)
  exact ⟨hsucceeded, hways.symm.trans hsucceeded, hresult, after, after', tiles', hafter, hafter',
    hread, hread'⟩

/-- A patch with a change of no name fails in either way, but each time another file is named.  A
patch that changes nothing is applied in place, but not into a copy where no file can be made. -/
theorem not_applyPatch_alike :
    let base := Layout.flat.container .empty
    let hash : Cell := .text (aggregateHash [])
    let header : List Row :=
      [[.text hashBeforeName, hash, .null], [.text hashAfterName, hash, .null]]
    let patch (rows : List Row) : Container :=
      ⟨[⟨"metadata", ["name", "value", "change"].map .free, [], rows⟩,
        ⟨"patches", (keyColumns ++ PatchFile.recordColumns).map .free, [], []⟩], []⟩
    let files : Workspace := ⟨[(["a"], .container base), (["p"], .container (patch header)),
      (["q"], .container (patch (header ++ [[.null, .text "v", .text "add"]])))]⟩
    let way (name : String) (destination : Option PathName) : Outcome :=
      applyPatch .affix .strict 1 ⟨["a"]⟩ ⟨[name]⟩ destination files
    let message (name : String) (destination : Option PathName) : Option String :=
      ((applyPatch .affix .strict 1 ⟨["a"]⟩ ⟨[name]⟩ destination files).result.toOption.bind
        OperationResult.fault).map Fault.message
    files.Shows ⟨["a"]⟩ ["a"] ⟨Layout.flat.shape, 1⟩
        { Session.start "a" true .empty with contents := base } [] .empty ∧
      (∀ name ∈ ["p", "q"], ∀ delta, files.Delivers ⟨[name]⟩ 1 delta → Set.InjOn payloadHash
        {data | data ∈ base.payloads ∨ delta.Writes .affix [] data}) ∧
      files.contains ⟨["d"]⟩ = false ∧
      message "q" none = some "a: NOT NULL constraint failed: metadata.name" ∧
      message "q" (some ⟨["d"]⟩) = some "d: NOT NULL constraint failed: metadata.name" ∧
      files.contains ⟨["a", "d"]⟩ = false ∧ (way "p" none).succeeded = true ∧
      (way "p" (some ⟨["a", "d"]⟩)).succeeded = false := by
  intro base hash header patch files way message
  have hbase := Tileset.Reached.start .flat 1 "a"
  refine ⟨⟨hbase, rfl, rfl, rfl⟩, ?_, by decide +kernel⟩
  rintro name hname delta ⟨place, contents, hfollow, hdelta⟩ data hdata
  obtain ⟨rows, rfl⟩ : ∃ rows, contents = patch rows := by
    rcases List.mem_cons.1 hname with rfl | hname
    · exact ⟨header, (Node.container.inj (Workspace.Reached.found.inj hfollow).2).symm⟩
    · obtain rfl := List.mem_singleton.1 hname
      exact ⟨_, (Node.container.inj (Workspace.Reached.found.inj hfollow).2).symm⟩
  have hrecords : delta.records = .ofList [] := PatchFile.records_of_load hdelta
  rcases hdata with hstored | ⟨record, hrecord, -⟩
  · cases hstored
  · rw [hrecords] at hrecord
    cases hrecord

end TileAtlas
