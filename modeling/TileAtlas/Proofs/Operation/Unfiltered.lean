import TileAtlas.Proofs.Operation.Copy
import TileAtlas.Proofs.Operation.Inversion
import TileAtlas.Proofs.Tileset.MetadataRows
import TileAtlas.Proofs.Tileset.Merge
import TileAtlas.Proofs.Tileset.Scanned

/-!
# Copying all tiles of any source

A source may come from anywhere, and the keys of its tiles may repeat.  A copy of all of them to a
new file leaves the last tile at each key: the counts are those of the source, but the aggregate
hash is that of the tiles that are left.
-/

namespace TileAtlas

namespace Copy

/-! ### Which tiles are left -/

variable {t : Tileset} {rows : List Row} {h : Holding} {s : Session} {onDuplicate : OnDuplicate}
  {held held' source : List Tile} {tile : Tile}

theorem marks_copied (hmarks : held.map Tile.mark = held'.map Tile.mark) :
    (copied .override held tile).map Tile.mark = (copied .override held' tile).map Tile.mark := by
  simp only [copied, skips_override, Bool.false_eq_true, if_false, List.map_append,
    filter_key_congr hmarks fun key => !decide (key = tile.key)]

/-- Putting a tile and copying it leave the same marks, whichever payload is kept. -/
theorem marks_put (layout : Layout) (h : Holding) (tile : Tile) :
    (h.put layout tile.key tile.data).tiles.map Tile.mark =
      (copied .override h.tiles tile).map Tile.mark := by
  obtain ⟨key, data⟩ := tile
  have hkept : Tile.mark ⟨key, data.map (h.kept layout)⟩ = Tile.mark ⟨key, data⟩ := by
    cases data with
    | none => rfl
    | some bytes => simp [Tile.mark, tileHash]
  have hrest : (data.elim (h.delete key) ((h.delete key).store layout)).tiles =
      h.tiles.filter fun old => !decide (old.key = key) := by
    cases data with
    | none => rfl
    | some bytes => exact Holding.tiles_store bytes
  simp only [Holding.put, hrest, copied, skips_override, Bool.false_eq_true, if_false,
    List.map_append, List.map_cons, List.map_nil, hkept]

/-- Of what is copied over some tiles the last tile at each key is left. -/
theorem foldl_copied_override (source held : List Tile) :
    source.foldl (copied .override) held =
      (held.filter fun old => !source.any fun other => other.key = old.key) ++ latest source := by
  induction source generalizing held with
  | nil => simp [latest]
  | cons tile rest ih =>
      have hfilter : (held.filter fun old => !decide (old.key = tile.key)).filter
            (fun old => !rest.any fun other => other.key = old.key) =
          held.filter fun old => !(tile :: rest).any fun other => other.key = old.key := by
        rw [List.filter_filter]
        refine List.filter_congr fun old _ => ?_
        simp only [List.any_cons, Bool.not_or, Bool.and_comm, eq_comm]
      rw [List.foldl_cons, ih, copied, skips_override, if_neg Bool.false_ne_true,
        List.filter_append, hfilter, List.append_assoc, latest]
      refine congrArg _ ?_
      cases hlater : rest.any fun other => other.key = tile.key <;> simp [hlater]

/-! ### Copying into an empty tileset -/

theorem copyEach_unchecked (hs : t.HoldsBeside rows h s)
    (hmarks : h.tiles.map Tile.mark = held.map Tile.mark) :
    Ends (copyEach t onDuplicate false source) s (fun _ s' => ∃ h', t.HoldsBeside rows h' s' ∧
        h'.tiles.map Tile.mark = (source.foldl (copied .override) held).map Tile.mark ∧
        s'.account = { s.account with tiles := { s.account.tiles with
          read := s.account.tiles.read + source.length
          written := s.account.tiles.written + source.length } })
      fun _ => True := by
  induction source generalizing held h s with
  | nil => exact .pure ⟨h, hs, hmarks, rfl⟩
  | cons tile rest ih =>
      have hfirst : Ends (copyTile t onDuplicate false tile) s (fun _ s' =>
          t.HoldsBeside rows (h.put t.shape.layout tile.key tile.data) s' ∧
          s'.account = { s.account with tiles := { s.account.tiles with
            read := s.account.tiles.read + 1
            written := s.account.tiles.written + 1 } }) fun _ => True := by
        rw [copyTile_eq]
        refine (Action.count_spec _ s).ends.bind fun _ s₁ hcounted => ?_
        have hs₁ : t.HoldsBeside rows h s₁ := hcounted ▸ hs.of_eq rfl rfl rfl
        refine (Yields.pure (Q := fun existing s' => existing = none ∧ s' = s₁)
          ⟨rfl, rfl⟩).ends.bind ?_
        rintro _ _ ⟨rfl, rfl⟩
        have hstays : staysOut onDuplicate tile none = .ok false := by cases onDuplicate <;> rfl
        refine (Action.ofExcept_spec hstays _).ends.bind ?_
        rintro _ s₁ ⟨rfl, rfl⟩
        have hput := (Tileset.put_beside hs₁ tile.key tile.data).and
          (Tileset.preserves_put Session.apart_account tile.key tile.data s₁)
        refine hput.on_success.bind ?_
        rintro _ s₂ ⟨hs₂, haccount⟩
        refine ((Action.count_spec _ s₂).mono ?_).ends
        rintro _ _ rfl
        refine ⟨hs₂.of_eq rfl rfl rfl, ?_⟩
        simp only [haccount, hcounted]
      refine hfirst.bind fun _ s₁ ⟨hs₁, haccount₁⟩ => ?_
      refine (ih hs₁ ((marks_put t.shape.layout h tile).trans (marks_copied hmarks))).mono ?_
        fun _ _ => trivial
      rintro _ s₂ ⟨h₂, hs₂, hmarks₂, haccount₂⟩
      refine ⟨h₂, hs₂, hmarks₂, ?_⟩
      simp only [haccount₂, haccount₁, List.length_cons, Nat.add_assoc, Nat.add_comm 1]

theorem copyTiles_unchecked {scan : Scan Tile} (hs : t.HoldsBeside rows h s) (hempty : h.tiles = [])
    (hstart : s.account.tiles = .zero)
    (hscan : ∀ items, scan = .ofList items → Tileset.checkBatch t.batch = .ok () ∧
      items.Pairwise fun a b => a.key ≤ b.key) :
    Ends (copyTiles t onDuplicate scan) s (fun _ s' => ∃ items rows' h', scan = .ofList items ∧
        t.HoldsBeside rows' h' s' ∧ h'.sorted.map Tile.mark = (latest items).map Tile.mark ∧
        s'.account.tiles = ⟨items.length, items.length, 0, 0, 0⟩ ∧
        s'.account.aggHash = .text (aggregateHash h'.sorted))
      fun _ => True := by
  refine hs.isEmpty_spec.ends.bind ?_
  rintro _ _ ⟨rfl, rfl⟩
  rw [hempty]
  refine (copyEach_unchecked hs (show _ = List.map Tile.mark [] by rw [hempty])).bind ?_
  rintro _ s₁ ⟨h₁, hs₁, hmarks, haccount⟩
  cases hall : scan.all with
  | error failure => exact .of_error (by rw [bind_apply, Action.ofExcept_error rfl]) trivial
  | ok items =>
      obtain rfl := Scan.all_eq_ok hall
      obtain ⟨hbatch, hordered⟩ := hscan items rfl
      refine (Action.ofExcept_spec (a := items) rfl s₁).ends.bind ?_
      rintro _ _ ⟨-, rfl⟩
      rw [foldl_copied_override] at hmarks
      have hsorted : h₁.finalize.sorted = h₁.tiles := by
        refine inOrder_of_ascending ?_
        exact (pairwise_key_congr hmarks).2 (ascending_latest hordered)
      refine ((Tileset.finalize_beside hs₁).and_leaves
        (Tileset.preserves_finalize Session.apart_account _)).ends.bind ?_
      rintro _ s₂ ⟨hs₂, haccount₂⟩
      refine (hs₂.aggregate_spec hbatch).ends.bind ?_
      rintro _ s₂ ⟨rfl, rfl⟩
      refine (Action.note_spec _ s₂).ends.bind fun _ s₃ hnoted => ?_
      have hs₃ : t.HoldsBeside rows h₁.finalize s₃ := hnoted ▸ hs₂.of_eq rfl rfl rfl
      refine ((Tileset.putMetadata_leaves hs₃ _ _).and
        (Tileset.preserves_putMetadata Session.apart_account _ _ s₃)).mono ?_ fun _ _ => trivial
      rintro _ s₄ ⟨hs₄, haccount₄⟩
      refine ⟨items, _, _, rfl, hs₄, hsorted ▸ hmarks, ?_, ?_⟩
      · simp only [haccount₄, hnoted, haccount₂, haccount, hstart]
        simp [TileCounters.zero, Scan.ofList]
      · simp only [haccount₄, hnoted]

theorem copyMetadata_leaves {I : Session → Prop}
    (hnotify : ∀ s notices, I s → I { s with notices })
    (hput : ∀ name value, isReserved name = false →
      ∀ s, I s → Leaves (Tileset.putMetadata name value) s I)
    (metadata : Except Failure Metadata) (hs : I s) :
    Leaves (copyMetadata onDuplicate metadata) s I := by
  refine (Action.leaves_query _ hs).bind fun existing s₁ hs₁ => ?_
  refine (Action.leaves_ofExcept _ hs₁).bind fun source s₂ hs₂ => ?_
  refine (Action.leaves_ofExcept _ hs₂).bind fun changes s₃ hs₃ => ?_
  exact Tileset.merge_leaves hnotify (fun change _ => hput change.name change.value) _ hs₃

theorem copyInto_eq (options : CopyOptions) (batch : Int) (shape : Shape)
    (metadata : Except Failure Metadata) (tiles : Scan Tile) :
    copyInto options batch shape metadata tiles =
      destination shape.layout options.layout batch >>= fun t =>
      (if options.copyType.copiesMetadata then
        copyMetadata options.onDuplicate metadata >>= fun taken =>
          Action.note fun account => { account with metadataChanges := taken }
      else pure ()) >>= fun _ =>
      if options.copyType.copiesTiles then copyTiles t options.onDuplicate tiles else pure () := by
  unfold copyInto
  cases options.copyType.copiesMetadata <;> cases options.copyType.copiesTiles <;>
    simp only [Bool.false_eq_true, if_true, if_false, bind_assoc, pure_bind]

/-- What a copy of tiles makes of a new container. -/
theorem copyInto_unchecked {options : CopyOptions} (htype : options.copyType.copiesTiles = true)
    {batch : Int} {shape : Shape} {metadata : Except Failure Metadata} {scan : Scan Tile}
    (hempty : s.contents = .empty) (hwritable : s.writable = true)
    (hstart : s.account.tiles = .zero)
    (hscan : ∀ items, scan = .ofList items → Tileset.checkBatch batch = .ok () ∧
      items.Pairwise fun a b => a.key ≤ b.key) :
    Ends (copyInto options batch shape metadata scan) s
      (fun _ s' => ∃ items rows h, scan = .ofList items ∧
        s'.contents = (options.layout.getD shape.layout).containerWith rows h ∧
        h.Valid (options.layout.getD shape.layout) ∧
        h.sorted.map Tile.mark = (latest items).map Tile.mark ∧
        s'.account.tiles = ⟨items.length, items.length, 0, 0, 0⟩ ∧
        s'.account.aggHash = .text (aggregateHash h.sorted))
      fun _ => True := by
  rw [copyInto_eq, htype]
  refine (destination_spec (.inl ⟨hempty, rfl, rfl⟩) (Holding.valid_empty _) hwritable).ends.bind ?_
  rintro _ s₁ ⟨rfl, hs₁, haccount₁⟩
  let t : Tileset := ⟨(options.layout.getD shape.layout).shape, batch⟩
  let I (s' : Session) : Prop :=
    (∃ rows, t.HoldsBeside rows .empty s') ∧ s'.account.tiles = .zero
  have hmetadata : Leaves (if options.copyType.copiesMetadata then
        copyMetadata options.onDuplicate metadata >>= fun taken =>
          Action.note fun account => { account with metadataChanges := taken }
      else pure ()) s₁ I := by
    have hI : I s₁ := ⟨⟨_, hs₁.besideMetadata⟩, haccount₁ ▸ hstart⟩
    split
    · refine (copyMetadata_leaves (I := I) ?_ ?_ metadata hI).bind ?_
      · exact fun s' notices ⟨⟨rows, hs'⟩, haccount⟩ => ⟨⟨rows, hs'.of_eq rfl rfl rfl⟩, haccount⟩
      · rintro name value - s' ⟨⟨rows, hs'⟩, haccount⟩
        refine ((Tileset.putMetadata_leaves hs' name value).and
          (Tileset.preserves_putMetadata Session.apart_account name value s')).mono ?_ ?_
        · exact fun _ s'' hs'' => ⟨⟨_, hs''.1⟩, hs''.2 ▸ haccount⟩
        · exact fun s'' hs'' => ⟨⟨_, hs''.1⟩, hs''.2 ▸ haccount⟩
      · rintro taken s' ⟨⟨rows, hs'⟩, haccount⟩
        exact ⟨⟨rows, hs'.of_eq rfl rfl rfl⟩, haccount⟩
    · exact .pure hI
  refine hmetadata.on_success.bind ?_
  rintro _ s₂ ⟨⟨rows, hs₂⟩, haccount₂⟩
  refine (copyTiles_unchecked hs₂ rfl haccount₂ hscan).mono ?_ fun _ _ => trivial
  rintro _ s₃ ⟨items, rows', h, rfl, hs₃, hmarks, hcounts, hhash⟩
  exact ⟨items, rows', h, rfl, hs₃.contents, hs₃.valid, hmarks, hcounts, hhash⟩

end Copy

/-- A copy of all tiles to a new file fails and leaves no file, or it succeeds.  Then every tile of
the source has been read and written, and the destination holds the last tile at each key.  The
aggregate hash of the result is the one of these, and the destination holds as many tiles as have
been written exactly if the keys of the source do not repeat. -/
theorem copy_unfiltered {options : CopyOptions} (hfilter : options.filter = .all)
    (htype : options.copyType.copiesTiles = true) {batch : Int} {source destination : PathName}
    {files : Workspace} (hnew : files.contains destination = false) :
    let outcome := copy options batch source destination files
    (outcome.succeeded = false →
      ∀ place node, outcome.files.follow destination = .found place node → node = .directory) ∧
    (outcome.succeeded = true → (∀ place, ¬ files.Hides destination place) →
      ∃ sourcePlace contents shape items place after tiles result,
        files.follow source = .found sourcePlace (.container contents) ∧
        detect source.text contents = .ok shape ∧
        Tileset.scan ⟨shape, batch⟩ .all source.text contents = .ofList items ∧
        outcome.files.follow destination = .found place (.container after) ∧
        Reads destination.text after (options.layout.getD shape.layout).shape batch tiles ∧
        tiles.map Tile.mark = (latest items).map Tile.mark ∧
        outcome.result = .ok result ∧
        result.account.aggHash = .text (aggregateHash (latest items)) ∧
        result.account.tiles = ⟨items.length, items.length, 0, 0, 0⟩ ∧
        (tiles.length = result.account.tiles.written ↔
          items.Pairwise fun a b => a.key ≠ b.key) ∧
        ((items.Pairwise fun a b => a.key ≠ b.key) →
          result.account.aggHash = .text (aggregateHash items))) := by
  intro outcome
  have hcopy : outcome = runOperation "copy" (some destination)
      (Copy.body options batch source destination) files := by
    show copy options batch source destination files = _
    rw [copy, hnew, if_neg Bool.false_ne_true]
  rw [hcopy]
  refine ⟨not_file_of_failed, fun hsucceeded hhides => ?_⟩
  obtain ⟨job, hrun, hout⟩ := runOperation_succeeded hsucceeded
  rw [hout]
  simp only [Copy.body, get_bind_eq_ok, guard_eq_ok, Operation.readContainer_bind_eq_ok] at hrun
  obtain ⟨-, sourcePlace, contents, hfollow, hrun⟩ := hrun
  obtain ⟨made, place, opened, session, hopens, hwork, hsame, haccount⟩ :=
    Operation.onCreated_eq_ok hrun
  obtain rfl : opened = .empty := by
    rcases hopens.follow with hfound | ⟨-, hempty⟩
    · exact absurd ⟨hnew, made, _, hopens.makes, hfound, Node.container_ne_directory _⟩
        (hhides place)
    · exact hempty
  rw [Action.ofExcept_bind_eq_ok] at hwork
  obtain ⟨shape, hshape, hwork⟩ := hwork
  obtain ⟨written, hbody, rfl⟩ := Action.transaction_eq_ok hwork
  rw [hfilter] at hbody
  obtain ⟨items, rows, h, hscan, hcontents, hvalid, hmarks, hcounts, hhash⟩ :=
    (Copy.copyInto_unchecked htype rfl rfl rfl fun items hitems =>
      Tileset.pairwise_of_scan (t := ⟨shape, batch⟩) hitems).of_ok hbody
  have hbatch := (Tileset.pairwise_of_scan (t := ⟨shape, batch⟩) hscan).1
  have hlength : h.sorted.length = (latest items).length := by
    simpa only [List.length_map] using congrArg List.length hmarks
  have hresult : job.account.aggHash = .text (aggregateHash (latest items)) := by
    rw [haccount, ← aggregateHash_congr hmarks]
    exact hhash
  have htiles : job.account.tiles = ⟨items.length, items.length, 0, 0, 0⟩ :=
    (congrArg Account.tiles haccount).trans hcounts
  refine ⟨sourcePlace, contents, shape, items, place, written.contents, h.sorted, _, hfollow,
    hshape, hscan, hopens.follow_of_same hsame, ?_, hmarks, rfl, hresult, htiles, ?_,
    fun hkeys => ?_⟩
  · rw [hcontents]
    let t : Tileset := ⟨(options.layout.getD shape.layout).shape, batch⟩
    exact ⟨Layout.detect_containerWith _ _ _ _,
      Tileset.scan_containerWith (t := t) _ hvalid hbatch,
      Tileset.aggregate_containerWith (t := t) _ hvalid hbatch⟩
  · rw [hlength, htiles]
    exact length_latest_eq_iff
  · rw [hresult, latest_of_pairwise hkeys]

/-- The later of two rows with the same key is left, though both are counted. -/
theorem copy_unfiltered_repeated :
    let first : Tile := ⟨⟨0, 0, 0⟩, some ⟨#[1]⟩⟩
    let last : Tile := ⟨⟨0, 0, 0⟩, some ⟨#[2]⟩⟩
    let tiles : Table := ⟨"tiles", (keyColumns ++ ["tile_data"]).map .free, [],
      [first, last].map Layout.flat.tileRow⟩
    let foreign : Container := ⟨[⟨"metadata", ["name", "value"].map .free, [], []⟩, tiles], []⟩
    let files : Workspace := ⟨[(["s"], .container foreign)]⟩
    let outcome := copy ⟨.all, .tiles, .override, none⟩ 1000 ⟨["s"]⟩ ⟨["d"]⟩ files
    Tileset.scan ⟨Layout.flat.shape, 1000⟩ .all "s" foreign = .ofList [first, last] ∧
    ∃ place after held result, outcome.files.follow ⟨["d"]⟩ = .found place (.container after) ∧
      Reads "d" after Layout.flat.shape 1000 held ∧ held.map Tile.mark = [last.mark] ∧
      outcome.result = .ok result ∧
      result.account.tiles.written = 2 ∧ result.account.aggHash = .text (aggregateHash [last]) ∧
      aggregateHash [last] ≠ aggregateHash [first, last] := by
  intro first last tiles foreign files outcome
  have hsucceeded : outcome.succeeded = true := by decide +kernel
  have hhides : ∀ place, ¬ files.Hides ⟨["d"]⟩ place := by
    rintro place ⟨-, made, node, hmade, hfollow, -⟩
    obtain rfl := Except.ok.inj (hmade.symm.trans (show _ = Except.ok files from rfl))
    cases hfollow
  have hforeign : Tileset.scan ⟨Layout.flat.shape, 1000⟩ .all "s" foreign =
      .ofList [first, last] := by decide +kernel
  obtain ⟨_, _, _, items, place, after, held, result, hsource, hshape, hscan, hfollow, hreads,
    hmarks, hresult, hhash, hcounts, -⟩ :=
    (copy_unfiltered rfl rfl (show files.contains ⟨["d"]⟩ = false from rfl)).2 hsucceeded hhides
  obtain ⟨rfl, rfl⟩ := Workspace.follow_container_inj hsource
    (show files.follow ⟨["s"]⟩ = .found ["s"] (.container foreign) from rfl)
  obtain rfl := Except.ok.inj
    (hshape.symm.trans (show _ = Except.ok Layout.flat.shape from by decide +kernel))
  obtain rfl := congrArg Scan.items (hscan.symm.trans hforeign)
  refine ⟨hforeign, place, after, held, result, hfollow, hreads, hmarks, hresult, ?_, hhash, ?_⟩
  · rw [hcounts]
    rfl
  · decide +kernel

end TileAtlas
