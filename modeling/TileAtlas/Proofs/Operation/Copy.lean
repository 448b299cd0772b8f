import TileAtlas.Proofs.Operation.CopyTiles
import TileAtlas.Proofs.Operation.Sync
import Mathlib.Order.Bounds.Defs

/-!
# What a copy of tiles leaves in its destination

The tiles that a filter accepts are copied into a new container or into one with a tileset in it.
Which of two tiles with the same key is there then, or whether the copy fails, depends on nothing
but the two lists of tiles and what is asked for; the layouts play no part.
-/

namespace TileAtlas

namespace Copy

/-- The tiles that a filter accepts. -/
def accepted (filter : TileFilter) (tiles : List Tile) : List Tile :=
  tiles.filter fun tile => decide (filter.accepts tile.key = .ok true)

/-- The keys that a source and a destination both hold, with different payloads. -/
def conflicts (held source : List Tile) : Set TileKey :=
  {key | ∃ tile ∈ source, tile.key = key ∧ Conflicts held tile}

theorem not_conflicts {held source : List Tile} {tile : Tile} (hnone : conflicts held source = ∅)
    (htile : tile ∈ source) : ¬ Conflicts held tile := by
  intro hconflict
  have hmem : tile.key ∈ conflicts held source := ⟨tile, htile, rfl, hconflict⟩
  rw [hnone] at hmem
  exact hmem

/-- Where a copy goes, and what is there: a new file, or another container than the source that the
library has made. -/
inductive Target (files : Workspace) (sourcePlace : List String) (fresh : Layout) (path : PathName)
    (place : List String) : Layout → List Tile → Metadata → Container → Prop
  | new {made : Workspace} : files.contains path = false →
      files.makeDirectory path.parent = .ok made → made.follow path = .vacant place →
      Target files sourcePlace fresh path place fresh [] .empty .empty
  | existing {t : Tileset} {s : Session} {tiles : List Tile} {metadata : Metadata} :
      files.Shows path place t s tiles metadata → place ≠ sourcePlace →
      Target files sourcePlace fresh path place t.shape.layout tiles metadata s.contents

section Target

variable {files : Workspace} {sourcePlace place : List String} {fresh layout : Layout}
  {source path : PathName} {tiles : List Tile} {metadata : Metadata} {contents : Container}

theorem Target.sameEntry {node : Node}
    (h : Target files sourcePlace fresh path place layout tiles metadata contents)
    (hfollow : files.follow source = .found sourcePlace node) :
    files.sameEntry source path = false := by
  cases h with
  | new hnew =>
      unfold Workspace.contains at hnew
      unfold Workspace.sameEntry
      rw [hfollow]
      cases hpath : files.follow path with
      | found other node => simp [hpath] at hnew
      | _ => rfl
  | existing hshows hne =>
      unfold Workspace.sameEntry
      rw [hfollow, hshows.follow]
      exact decide_eq_false hne.symm

/-- A target is opened as a container that the tiles can be copied into, and what is written to it
then is what its path name leads to. -/
theorem Target.opens
    (h : Target files sourcePlace fresh path place layout tiles metadata contents) :
    ∃ held opened, files.openCreating path = (opened, .ok (place, contents)) ∧
      (∀ after, (opened.set place (.container after)).follow path =
        .found place (.container after)) ∧
      Finds contents fresh layout held ∧ held.Valid layout ∧ tiles = held.sorted ∧
      metadata = .ofTexts held.metadata ∧ ∀ image ∈ held.images, image ∈ contents.payloads := by
  cases h with
  | @new made hnew hmade hvacant =>
      refine ⟨.empty, _, Workspace.openCreating_of_vacant hmade hvacant, fun after => ?_,
        .inl ⟨rfl, rfl, rfl⟩, Holding.valid_empty fresh, rfl, rfl, nofun⟩
      exact Workspace.follow_set _ (.inl ⟨_, Workspace.follow_set _ (.inr hvacant), nofun⟩)
  | existing hshows hne =>
      obtain ⟨held, hcontents, hvalid, -, htiles, hmetadata⟩ := hshows.holding
      refine ⟨held, files, Workspace.openCreating_of_found hshows.follow, fun after => ?_,
        .inr hcontents, hvalid, htiles, hmetadata, fun image himage => ?_⟩
      · exact Workspace.follow_set _ (.inl ⟨_, hshows.follow, nofun⟩)
      · rw [hcontents]
        exact hvalid.mem_payloads himage

/-- There is metadata only where there is a container already. -/
theorem Target.follow
    (h : Target files sourcePlace fresh path place layout tiles metadata contents)
    (hheld : metadata ≠ .empty) : files.follow path = .found place (.container contents) := by
  cases h with
  | new => exact absurd rfl hheld
  | existing hshows hne => exact hshows.follow

theorem Target.contains {tile : Tile}
    (h : Target files sourcePlace fresh path place layout tiles metadata contents)
    (hconflict : Conflicts tiles tile) : files.contains path = true := by
  cases h with
  | new =>
      obtain ⟨old, hold, -⟩ := hconflict
      cases hold
  | existing hshows hne => exact Workspace.contains_eq_true.2 ⟨place, _, hshows.follow⟩

end Target

/-- The first of some tiles that conflict with those that are held has the smallest key. -/
theorem exists_first {held source : List Tile} (hsource : Ascending source)
    (hconflicts : (conflicts held source).Nonempty) :
    ∃ before tile after, source = before ++ tile :: after ∧ Conflicts held tile ∧
      (∀ other ∈ before, ¬ Conflicts held other) ∧ IsLeast (conflicts held source) tile.key := by
  obtain ⟨key, tile, htile, -, hconflict⟩ := hconflicts
  obtain ⟨before, first, after, hsplit, hfirst, hbefore, hleast⟩ :=
    exists_first_of_ascending Tile.key hsource ⟨tile, htile, hconflict⟩
  refine ⟨before, first, after, hsplit, hfirst, hbefore, ⟨first, ?_, rfl, hfirst⟩, ?_⟩
  · rw [hsplit]
    exact List.mem_append_right _ (List.mem_cons_self ..)
  · rintro _ ⟨other, hother, rfl, hotherConflict⟩
    exact hleast other hother hotherConflict

section Body

variable {options : CopyOptions} {batch : Int} {files opened : Workspace}
  {source destination : PathName} {sourcePlace place : List String} {sourceContents : Container}
  {shape : Shape} {tiles : List Tile} {contents : Container} {layout : Layout} {h h' : Holding}
  {P : Set Bytes}

/-- Everything but the copying of the tiles itself. -/
theorem body_run {scan : Scan Tile} (hsame : files.sameEntry source destination = false)
    (hfollow : files.follow source = .found sourcePlace (.container sourceContents))
    (hdetect : detect source.text sourceContents = .ok shape)
    (hscan : Tileset.scan ⟨shape, batch⟩ options.filter source.text sourceContents = scan)
    (hopen : files.openCreating destination = (opened, .ok (place, contents))) :
    body options batch source destination (.start files) =
      Operation.work place (.start destination.text true contents)
        (Action.transaction (copyInto options batch shape
          (Tileset.metadata source.text sourceContents) scan))
        { Job.start files with files := opened } := by
  have hfiles : (Job.start files).files = files := rfl
  have hread : Operation.readContainer source (.start files) =
      .ok sourceContents (.start files) := by
    simp only [Operation.readContainer, bind_apply, get_apply, hfiles,
      Operation.openExisting_of_follow hfollow]
    rfl
  simp only [body, bind_apply, get_apply, hfiles, hsame, Bool.false_eq_true, if_false, hread,
    hdetect]
  refine (Operation.onCreated_of_open hopen _).trans ?_
  simp only [Action.ofExcept, pure_bind, hscan]

/-- What a copy comes down to once the source has been read and the destination is open: tiles are
copied into what the destination holds. -/
structure Prepared (options : CopyOptions) (batch : Int) (files : Workspace)
    (source destination : PathName) (place : List String) (layout : Layout) (tiles : List Tile)
    (h : Holding) (P : Set Bytes) : Prop where
  ascending : Ascending tiles
  suits : Suits P h tiles
  valid : h.Valid layout
  run : ∃ opened shape contents metadata,
    Finds contents (options.layout.getD shape.layout) layout h ∧
    (∀ after, (opened.set place (.container after)).follow destination =
      .found place (.container after)) ∧
    body options batch source destination (.start files) =
      Operation.work place (.start destination.text true contents)
        (Action.transaction (copyInto options batch shape metadata (.ofList tiles)))
        { Job.start files with files := opened }

theorem Prepared.yields (hcopy : Prepared options batch files source destination place layout tiles
      h P) (htype : options.copyType = .tiles) (hbatch : Tileset.checkBatch batch = .ok ())
    (hagree : options.onDuplicate = .abort → conflicts h.sorted tiles = ∅) :
    Yields (body options batch source destination) (.start files) fun _ job =>
      job.account = account options.onDuplicate tiles h.sorted ∧ job.details = .none ∧
        ∃ h', h'.Valid layout ∧ Leads options.onDuplicate tiles h h' ∧
          job.files.follow destination = .found place (.container (layout.container h')) := by
  obtain ⟨opened, shape, contents, metadata, hfinds, hfollow, hrun⟩ := hcopy.run
  have hnone (habort : options.onDuplicate = .abort) : ∀ tile ∈ tiles, ¬ Conflicts h.tiles tile :=
    fun tile htile hconflict =>
      not_conflicts (hagree habort) htile (conflicts_inOrder.2 hconflict)
  refine .of_run hrun ((Operation.work_yields (Action.transaction_yields rfl (copyInto_spec htype
    hfinds hcopy.valid rfl rfl hbatch hcopy.suits hnone))).mono ?_)
  rintro _ _ ⟨_, ⟨after, ⟨h', hcontents, hvalid, hleads, haccount⟩, rfl⟩, rfl⟩
  refine ⟨haccount, rfl, h', hvalid, hleads, ?_⟩
  rw [← hcontents]
  exact hfollow after.contents

theorem Prepared.failsWith (hcopy : Prepared options batch files source destination place layout
      tiles h P) (htype : options.copyType = .tiles) (hbatch : Tileset.checkBatch batch = .ok ())
    (habort : options.onDuplicate = .abort) (hconflicts : (conflicts h.sorted tiles).Nonempty) :
    ∃ key, IsLeast (conflicts h.sorted tiles) key ∧
      FailsWith (body options batch source destination) (.start files)
        (.fault (.tileConflict key)) := by
  obtain ⟨opened, shape, contents, metadata, hfinds, -, hrun⟩ := hcopy.run
  obtain ⟨before, tile, after, hsplit, hconflict, hbefore, hleast⟩ :=
    exists_first hcopy.ascending hconflicts
  refine ⟨tile.key, hleast, .of_run hrun ?_⟩
  exact Operation.work_failsWith (Action.transaction_failsWith rfl (copyInto_conflict htype hfinds
    hcopy.valid rfl hbatch habort hsplit hcopy.suits
    (fun other hother => conflicts_inOrder.not.1 (hbefore other hother))
    (conflicts_inOrder.1 hconflict)))

/-- A copy between tilesets of the library is prepared. -/
theorem exists_prepared {t : Tileset} {s : Session} {sourceTiles held : List Tile}
    {sourceMetadata metadata : Metadata} (hbatch : Tileset.checkBatch batch = .ok ())
    (hsource : files.Shows source sourcePlace t s sourceTiles sourceMetadata)
    (htarget : Target files sourcePlace (options.layout.getD t.shape.layout) destination place
      layout held metadata contents)
    (hzoom : ∀ n ∈ options.filter.minZoom.toList ++ options.filter.maxZoom.toList,
      (Cell.int n).fits = true)
    (haccepts : ∀ tile ∈ sourceTiles, ∃ accepted, options.filter.accepts tile.key = .ok accepted)
    (hP : Set.InjOn payloadHash (involved (accepted options.filter sourceTiles) held contents)) :
    ∃ h, held = h.sorted ∧ metadata = .ofTexts h.metadata ∧
      Prepared options batch files source destination place layout
        (accepted options.filter sourceTiles) h
        (involved (accepted options.filter sourceTiles) held contents) := by
  obtain ⟨sourceHeld, hsourceContents, hsourceValid, -, rfl, -⟩ := hsource.holding
  obtain ⟨h, opened, hopen, hfollow, hfinds, hvalid, rfl, rfl, himages⟩ := htarget.opens
  have hdetect : detect source.text s.contents = .ok t.shape := (hsource.reads hbatch).detected
  have hscan : Tileset.scan ⟨t.shape, batch⟩ options.filter source.text s.contents =
      .ofList (accepted options.filter sourceHeld.sorted) := by
    rw [hsourceContents]
    exact Tileset.scan_filtered source.text (t := ⟨t.shape, batch⟩) hsourceValid hbatch hzoom
      fun tile htile => haccepts tile (mem_inOrder.2 htile)
  have hascending : Ascending (accepted options.filter sourceHeld.sorted) :=
    hsource.ascending.filter _
  refine ⟨h, rfl, rfl, hascending, ⟨hP, fun image himage => .inr (himages image himage),
    hascending.imp fun hlt => hlt.ne, fun tile htile => ?_, fun tile htile data hdata => ?_⟩,
    hvalid, opened, t.shape, contents, _, hfinds, hfollow,
    body_run (htarget.sameEntry hsource.follow) hsource.follow hdetect hscan hopen⟩
  · exact hsource.fits tile (List.mem_of_mem_filter htile)
  · exact .inl ⟨tile, List.mem_append_left _ htile, hdata⟩

theorem Leads.reads (hleads : Leads options.onDuplicate tiles h h') (hvalid : h'.Valid layout)
    (hbatch : Tileset.checkBatch batch = .ok ()) (file : String) :
    Reads file (layout.container h') layout.shape batch
      (merged options.onDuplicate tiles h.sorted) := by
  rw [← hleads.sorted]
  exact reads_container file hvalid hbatch

theorem Leads.get? (hleads : Leads options.onDuplicate tiles h h') (name : String) :
    (Metadata.ofTexts h'.metadata).get? (.text name) =
      if name = aggHashName then
        some (.text (aggregateHash (merged options.onDuplicate tiles h.sorted)))
      else (Metadata.ofTexts h.metadata).get? (.text name) := by
  rw [Metadata.get?_ofTexts, Metadata.get?_ofTexts, hleads.metadata, hleads.sorted]
  split <;> rfl

end Body

end Copy

/-- Copying tiles puts those that the filter accepts into the destination.  If a copy is to be
aborted, it fails where a tile has another payload in the destination, and names the smallest key of
such a tile.  Otherwise it succeeds, the tiles of one side are written over those of the other, and
the hash in the result and in the metadata is that of the tiles that are there then. -/
theorem copy_tiles {options : CopyOptions} (htype : options.copyType = .tiles) {batch : Int}
    (hbatch : -0x80000000 ≤ batch ∧ batch < 0x80000000) {files : Workspace}
    {source destination : PathName} {sourcePlace place : List String} {t : Tileset} {s : Session}
    {sourceTiles held : List Tile} {sourceMetadata metadata : Metadata} {layout : Layout}
    {contents : Container}
    (hsource : files.Shows source sourcePlace t s sourceTiles sourceMetadata)
    (htarget : Copy.Target files sourcePlace (options.layout.getD t.shape.layout) destination place
      layout held metadata contents)
    (hzoom : ∀ n ∈ options.filter.minZoom.toList ++ options.filter.maxZoom.toList,
      (Cell.int n).fits = true)
    (haccepts : ∀ tile ∈ sourceTiles, ∃ accepted, options.filter.accepts tile.key = .ok accepted)
    (hP : Set.InjOn payloadHash
      (involved (Copy.accepted options.filter sourceTiles) held contents)) :
    let accepted := Copy.accepted options.filter sourceTiles
    let tiles := Copy.merged options.onDuplicate accepted held
    let outcome := copy options batch source destination files
    (options.onDuplicate = .abort → (Copy.conflicts held accepted).Nonempty →
      ∃ key account, IsLeast (Copy.conflicts held accepted) key ∧
        outcome.result = .ok ⟨"copy", some (.tileConflict key), account, .none⟩) ∧
    ((options.onDuplicate = .abort → Copy.conflicts held accepted = ∅) →
      outcome.result =
        .ok ⟨"copy", none, Copy.account options.onDuplicate accepted held, .none⟩ ∧
      ∃ after stored, outcome.files.follow destination = .found place (.container after) ∧
        Reads destination.text after layout.shape batch tiles ∧
        Tileset.metadata destination.text after = .ok stored ∧
        ∀ name : String, stored.get? (.text name) =
          if name = aggHashName then some (.text (aggregateHash tiles))
          else metadata.get? (.text name)) ∧
    (options.onDuplicate = .abort → Copy.conflicts held accepted = ∅ →
      ∀ tile, tile ∈ tiles ↔ tile ∈ accepted ∨ tile ∈ held) := by
  intro accepted tiles outcome
  have hbatchOk := checkBatch_of_range hbatch
  obtain ⟨h, rfl, rfl, hcopy⟩ :=
    Copy.exists_prepared hbatchOk hsource htarget hzoom haccepts hP
  refine ⟨fun habort hconflicts => ?_, fun hagree => ?_, fun habort hnone tile => ?_⟩
  · obtain ⟨key, hleast, hfails⟩ := hcopy.failsWith htype hbatchOk habort hconflicts
    obtain ⟨account, hresult⟩ := runOperation_failsWith hfails rfl "copy"
    -- there is nothing to conflict with in a new destination, so none is removed again
    obtain ⟨_, tile, -, -, hconflict⟩ := hconflicts
    refine ⟨key, account, hleast, ?_⟩
    show (copy options batch source destination files).result = _
    rw [copy, if_pos (htarget.contains hconflict)]
    exact hresult
  · obtain ⟨job, ⟨haccount, hdetails, h', hvalid, hleads, hfollow⟩, hrun⟩ :=
      runOperation_yields (hcopy.yields htype hbatchOk hagree) "copy"
        (if files.contains destination then none else some destination)
    have hout : outcome = ⟨job.files, job.notices, .ok ⟨"copy", none, job.account, job.details⟩⟩ :=
      hrun
    rw [hout, haccount, hdetails]
    exact ⟨rfl, layout.container h', .ofTexts h'.metadata, hfollow,
      hleads.reads hvalid hbatchOk destination.text,
      Tileset.metadata_container destination.text hvalid, hleads.get?⟩
  · have hmerged : tiles = Copy.merged .abort accepted h.sorted := by
      show Copy.merged options.onDuplicate accepted h.sorted = _
      rw [habort]
    rw [hmerged]
    refine Copy.mem_merged_abort hP hcopy.suits.payloads (fun tile htile data hdata => ?_)
      fun tile htile => Copy.not_conflicts hnone htile
    exact .inl ⟨tile, List.mem_append_right _ htile, hdata⟩

/-- A tile is copied to where there is a null tile, or the copy is aborted. -/
theorem copy_tiles_overNull :
    let tile : Tile := ⟨⟨0, 0, 0⟩, some ⟨#[7]⟩⟩
    let null : Tile := ⟨⟨0, 0, 0⟩, none⟩
    let files : Workspace := ⟨[(["a"], .container (Layout.flat.container ⟨[tile], [], []⟩)),
      (["b"], .container (Layout.normalized.container ⟨[null], [], []⟩))]⟩
    let outcome (onDuplicate : OnDuplicate) : Outcome :=
      copy ⟨.all, .tiles, onDuplicate, none⟩ 1 ⟨["a"]⟩ ⟨["b"]⟩ files
    (∃ account, (outcome .abort).result =
      .ok ⟨"copy", some (.tileConflict ⟨0, 0, 0⟩), account, .none⟩) ∧
    (outcome .override).result =
      .ok ⟨"copy", none, ⟨⟨1, 1, 0, 0, 0⟩, 0, .text (aggregateHash [tile])⟩, .none⟩ ∧
    ∃ after, (outcome .override).files.follow ⟨["b"]⟩ = .found ["b"] (.container after) ∧
      Reads "b" after Layout.normalized.shape 1 [tile] := by
  intro tile null files outcome
  have hsource : files.Shows ⟨["a"]⟩ ["a"] ⟨Layout.flat.shape, 1⟩
      { Session.start "a" true .empty with contents := Layout.flat.container ⟨[tile], [], []⟩ }
      [tile] .empty := by
    have hcreated := Tileset.Reached.start .flat 1 "a"
    exact ⟨hcreated.succeeded (.put ⟨0, 0, 0⟩ (some ⟨#[7]⟩)) rfl, rfl, rfl, rfl⟩
  have hshows : files.Shows ⟨["b"]⟩ ["b"] ⟨Layout.normalized.shape, 1⟩
      { Session.start "b" true .empty with
        contents := Layout.normalized.container ⟨[null], [], []⟩ } [null] .empty := by
    have hcreated := Tileset.Reached.start .normalized 1 "b"
    exact ⟨hcreated.succeeded (.put ⟨0, 0, 0⟩ none) rfl, rfl, rfl, rfl⟩
  have htarget : Copy.Target files ["a"] .flat ⟨["b"]⟩ ["b"] .normalized [null] .empty
      (Layout.normalized.container ⟨[null], [], []⟩) := .existing hshows (by decide)
  have honly : ∀ data ∈ involved [tile] [null] (Layout.normalized.container ⟨[null], [], []⟩),
      data = ⟨#[7]⟩ := by
    rintro data (⟨other, hother, hdata⟩ | hstored)
    · rcases List.mem_cons.1 hother with rfl | hother
      · exact (Option.some.inj hdata).symm
      · obtain rfl := List.mem_singleton.1 hother
        cases hdata
    · cases hstored
  have hcopy (onDuplicate : OnDuplicate) :=
    @copy_tiles ⟨.all, .tiles, onDuplicate, none⟩ rfl 1 (by decide) files ⟨["a"]⟩ ⟨["b"]⟩ _ _ _ _ _
      _ _ _ _ _ hsource htarget nofun (fun _ _ => ⟨true, rfl⟩)
      fun a ha b hb _ => (honly a ha).trans (honly b hb).symm
  have hconflict : (⟨0, 0, 0⟩ : TileKey) ∈ Copy.conflicts [null] [tile] :=
    ⟨tile, List.mem_singleton_self _, rfl, null, List.mem_singleton_self _, rfl, nofun⟩
  obtain ⟨key, account, ⟨⟨_, hmem, rfl, -⟩, -⟩, habort⟩ := (hcopy .abort).1 rfl ⟨_, hconflict⟩
  obtain rfl := List.mem_singleton.1 hmem
  obtain ⟨hresult, after, -, hfollow, hreads, -⟩ := (hcopy .override).2.1 nofun
  exact ⟨⟨account, habort⟩, hresult, after, hfollow, hreads⟩

/-- A number of rows to fetch that is no machine integer keeps the tiles from being copied. -/
theorem not_copy_of_hugeBatch :
    let files : Workspace := ⟨[(["a"], .container (Layout.flat.container .empty))]⟩
    files.Shows ⟨["a"]⟩ ["a"] ⟨Layout.flat.shape, 1⟩
      { Session.start "a" true .empty with contents := Layout.flat.container .empty } [] .empty ∧
    Copy.Target files ["a"] .flat ⟨["b"]⟩ ["b"] .flat [] .empty .empty ∧
    (copy ⟨.all, .tiles, .override, none⟩ 0x80000000 ⟨["a"]⟩ ⟨["b"]⟩ files).result =
      .error .outOfRange := by
  intro files
  refine ⟨⟨?_, rfl, rfl, rfl⟩, .new rfl rfl rfl, rfl⟩
  exact Tileset.Reached.start .flat 1 "a"

end TileAtlas
