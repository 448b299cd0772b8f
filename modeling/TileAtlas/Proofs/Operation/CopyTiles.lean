import TileAtlas.Operation.Copy
import TileAtlas.Proofs.Patch.Reproduce
import TileAtlas.Proofs.Tileset.Untouched

/-!
# Copying tile by tile

The tiles of a source are written to the destination one after the other, and the destination is
asked for each key whether it holds a tile there already.  Since the keys of the source do not
repeat, it answers as it would have before the copy, and in the end one list of tiles is written over
the other.
-/

namespace TileAtlas

namespace Copy

/-! ### Lists of tiles -/

variable {onDuplicate : OnDuplicate} {held source upper lower : List Tile} {tile other : Tile}

/-- Whether a tile of the source is left out, since there is a tile at its key. -/
def skips (onDuplicate : OnDuplicate) (held : List Tile) (tile : Tile) : Bool :=
  decide (onDuplicate ≠ .override) && held.any fun old => old.key = tile.key

/-- Whether there is a tile with another payload at the key of a tile. -/
def Conflicts (held : List Tile) (tile : Tile) : Prop :=
  ∃ old ∈ held, old.key = tile.key ∧ tileHash old.data ≠ tileHash tile.data

/-- The tiles after one tile of the source has been copied. -/
def copied (onDuplicate : OnDuplicate) (held : List Tile) (tile : Tile) : List Tile :=
  if skips onDuplicate held tile then held
  else (held.filter fun old => !decide (old.key = tile.key)) ++ [tile]

/-- The counts after one tile of the source has been copied. -/
def counted (onDuplicate : OnDuplicate) (held : List Tile) (counters : TileCounters)
    (tile : Tile) : TileCounters :=
  let counters := { counters with read := counters.read + 1 }
  if skips onDuplicate held tile then { counters with skipped := counters.skipped + 1 }
  else { counters with written := counters.written + 1 }

/-- Some tiles written over others, in ascending order of keys. -/
def overlay (upper lower : List Tile) : List Tile :=
  inOrder (upper ++ lower.filter fun tile => !upper.any fun other => other.key = tile.key)

/-- The tiles of a source and a destination, one written over the other. -/
def merged (onDuplicate : OnDuplicate) (source held : List Tile) : List Tile :=
  match onDuplicate with
  | .override => overlay source held
  | _ => overlay held source

theorem mem_overlay : tile ∈ overlay upper lower ↔
    tile ∈ upper ∨ tile ∈ lower ∧ ∀ other ∈ upper, other.key ≠ tile.key := by
  simp [overlay]

theorem ascending_overlay (hupper : upper.Pairwise fun a b => a.key ≠ b.key)
    (hlower : lower.Pairwise fun a b => a.key ≠ b.key) : Ascending (overlay upper lower) := by
  refine ascending_inOrder (List.pairwise_append.2 ⟨hupper, hlower.filter _, ?_⟩)
  intro a ha b hb
  have hnone := (List.mem_filter.1 hb).2
  simp only [Bool.not_eq_true', List.any_eq_false, decide_eq_true_eq] at hnone
  exact hnone a ha

theorem skips_override : skips .override held tile = false := rfl

theorem skips_eq_true (hpolicy : onDuplicate ≠ .override) :
    skips onDuplicate held tile = true ↔ ∃ old ∈ held, old.key = tile.key := by
  simp [skips, hpolicy]

theorem mem_copied : other ∈ copied onDuplicate held tile ↔
    if skips onDuplicate held tile then other ∈ held
    else other = tile ∨ other ∈ held ∧ other.key ≠ tile.key := by
  unfold copied
  split <;> simp [or_comm]

/-- A tile that is copied changes nothing at the other keys. -/
theorem mem_copied_of_ne (hother : other.key ≠ tile.key) :
    other ∈ copied onDuplicate held tile ↔ other ∈ held := by
  have hne : other ≠ tile := fun heq => hother (congrArg Tile.key heq)
  rw [mem_copied]
  split
  · exact .rfl
  · simp [hne, hother]

theorem skips_copied (hother : other.key ≠ tile.key) :
    skips onDuplicate (copied onDuplicate held tile) other = skips onDuplicate held other := by
  have hany : ((copied onDuplicate held tile).any fun old => old.key = other.key) =
      held.any fun old => old.key = other.key := by
    rw [Bool.eq_iff_iff, List.any_eq_true, List.any_eq_true]
    refine exists_congr fun old => and_congr_left fun hold => ?_
    exact mem_copied_of_ne (of_decide_eq_true hold ▸ hother)
  rw [skips, hany, skips]

theorem conflicts_copied (hother : other.key ≠ tile.key) :
    Conflicts (copied onDuplicate held tile) other ↔ Conflicts held other := by
  refine exists_congr fun old => and_congr_left fun hold => ?_
  exact mem_copied_of_ne (hold.1 ▸ hother)

/-- Tiles that are copied change nothing at the other keys. -/
theorem mem_foldl_copied_of_ne (hsource : ∀ other ∈ source, tile.key ≠ other.key) :
    tile ∈ source.foldl (copied onDuplicate) held ↔ tile ∈ held := by
  induction source generalizing held with
  | nil => rfl
  | cons first rest ih =>
      rw [List.forall_mem_cons] at hsource
      rw [List.foldl_cons, ih hsource.2, mem_copied_of_ne hsource.1]

theorem conflicts_foldl_copied (hsource : ∀ other ∈ source, tile.key ≠ other.key) :
    Conflicts (source.foldl (copied onDuplicate) held) tile ↔ Conflicts held tile := by
  refine exists_congr fun old => and_congr_left fun hold => ?_
  exact mem_foldl_copied_of_ne (hold.1 ▸ hsource)

theorem foldl_counted_copied (hsource : ∀ other ∈ source, tile.key ≠ other.key)
    (counters : TileCounters) :
    source.foldl (counted onDuplicate (copied onDuplicate held tile)) counters =
      source.foldl (counted onDuplicate held) counters := by
  refine List.foldl_ext _ _ _ fun counters other hother => ?_
  simp only [counted, skips_copied (hsource other hother).symm]

/-- The tiles of the source are read, and those that are not skipped are written. -/
theorem foldl_counted (counters : TileCounters) :
    source.foldl (counted onDuplicate held) counters =
      { counters with
        read := counters.read + source.length
        written := counters.written + (source.length - source.countP (skips onDuplicate held))
        skipped := counters.skipped + source.countP (skips onDuplicate held) } := by
  induction source generalizing counters with
  | nil => simp
  | cons tile rest ih =>
      have hle : rest.countP (skips onDuplicate held) ≤ rest.length := List.countP_le_length
      rw [List.foldl_cons, ih]
      cases hskips : skips onDuplicate held tile <;>
        simp only [counted, hskips, Bool.false_eq_true, if_false, if_true, List.length_cons,
          List.countP_cons, TileCounters.mk.injEq, and_true] <;>
        omega

theorem mem_foldl_override (hsource : source.Pairwise fun a b => a.key ≠ b.key) :
    tile ∈ source.foldl (copied .override) held ↔
      tile ∈ source ∨ tile ∈ held ∧ ∀ other ∈ source, other.key ≠ tile.key := by
  induction source generalizing held with
  | nil => simp
  | cons first rest ih =>
      obtain ⟨hfirst, hrest⟩ := List.pairwise_cons.1 hsource
      rw [List.foldl_cons, ih hrest, mem_copied, skips_override, if_neg Bool.false_ne_true,
        List.mem_cons, List.forall_mem_cons]
      constructor
      · rintro (htile | ⟨rfl | ⟨htile, hne⟩, hnone⟩)
        · exact .inl (.inr htile)
        · exact .inl (.inl rfl)
        · exact .inr ⟨htile, hne.symm, hnone⟩
      · rintro ((rfl | htile) | ⟨htile, hne, hnone⟩)
        · exact .inr ⟨.inl rfl, fun other hother => (hfirst other hother).symm⟩
        · exact .inl htile
        · exact .inr ⟨.inr ⟨htile, hne.symm⟩, hnone⟩

theorem mem_foldl_of_ne_override (hpolicy : onDuplicate ≠ .override)
    (hsource : source.Pairwise fun a b => a.key ≠ b.key) :
    tile ∈ source.foldl (copied onDuplicate) held ↔
      tile ∈ held ∨ tile ∈ source ∧ ∀ old ∈ held, old.key ≠ tile.key := by
  induction source generalizing held with
  | nil => simp
  | cons first rest ih =>
      obtain ⟨hfirst, hrest⟩ := List.pairwise_cons.1 hsource
      rw [List.foldl_cons, ih hrest, List.mem_cons]
      by_cases hheld : ∃ old ∈ held, old.key = first.key
      · have hskips := (skips_eq_true hpolicy).2 hheld
        obtain ⟨old, hold, hkey⟩ := hheld
        rw [copied, if_pos hskips]
        constructor
        · exact Or.imp_right fun ⟨htile, hnone⟩ => ⟨.inr htile, hnone⟩
        · rintro (htile | ⟨rfl | htile, hnone⟩)
          · exact .inl htile
          · exact absurd hkey (hnone old hold)
          · exact .inr ⟨htile, hnone⟩
      · have hskips : ¬ skips onDuplicate held first = true := fun hskips =>
          hheld ((skips_eq_true hpolicy).1 hskips)
        have hnew : ∀ old ∈ held, old.key ≠ first.key := fun old hold hkey =>
          hheld ⟨old, hold, hkey⟩
        simp only [mem_copied, if_neg hskips]
        constructor
        · rintro ((rfl | htile) | ⟨htile, hnone⟩)
          · exact .inr ⟨.inl rfl, hnew⟩
          · exact .inl htile.1
          · exact .inr ⟨.inr htile, fun old hold => hnone old (.inr ⟨hold, hnew old hold⟩)⟩
        · rintro (htile | ⟨rfl | htile, hnone⟩)
          · exact .inl (.inr ⟨htile, hnew tile htile⟩)
          · exact .inl (.inl rfl)
          · refine .inr ⟨htile, ?_⟩
            rintro old (rfl | ⟨hold, -⟩)
            · exact hfirst tile htile
            · exact hnone old hold

theorem ascending_merged (hsource : source.Pairwise fun a b => a.key ≠ b.key)
    (hheld : held.Pairwise fun a b => a.key ≠ b.key) :
    Ascending (merged onDuplicate source held) := by
  cases onDuplicate with
  | override => exact ascending_overlay hsource hheld
  | _ => exact ascending_overlay hheld hsource

theorem skips_inOrder : skips onDuplicate (inOrder held) tile = skips onDuplicate held tile := by
  have hany : ((inOrder held).any fun old => old.key = tile.key) =
      held.any fun old => old.key = tile.key := by
    rw [Bool.eq_iff_iff, List.any_eq_true, List.any_eq_true]
    simp only [mem_inOrder]
  rw [skips, hany, skips]

theorem conflicts_inOrder : Conflicts (inOrder held) tile ↔ Conflicts held tile := by
  simp only [Conflicts, mem_inOrder]

theorem merged_inOrder (hsource : source.Pairwise fun a b => a.key ≠ b.key)
    (hheld : held.Pairwise fun a b => a.key ≠ b.key) :
    merged onDuplicate source (inOrder held) = merged onDuplicate source held := by
  have hsorted : (inOrder held).Pairwise fun a b => a.key ≠ b.key :=
    (ascending_inOrder hheld).imp fun hlt => hlt.ne
  refine (ascending_merged hsource hsorted).ext (ascending_merged hsource hheld) fun tile => ?_
  cases onDuplicate <;> simp only [merged, mem_overlay, mem_inOrder]

/-- Where no tile of the source conflicts with one that is held, nothing of either is lost. -/
theorem mem_merged_abort {P : Set Bytes} (hP : Set.InjOn payloadHash P)
    (hsource : ∀ tile ∈ source, ∀ data ∈ tile.data, data ∈ P)
    (hheld : ∀ tile ∈ held, ∀ data ∈ tile.data, data ∈ P)
    (hagree : ∀ tile ∈ source, ¬ Conflicts held tile) :
    tile ∈ merged .abort source held ↔ tile ∈ source ∨ tile ∈ held := by
  refine mem_overlay.trans ⟨Or.rec .inr fun htile => .inl htile.1, ?_⟩
  rintro (htile | htile)
  · by_cases hkey : ∃ old ∈ held, old.key = tile.key
    · obtain ⟨old, hold, hkey⟩ := hkey
      have hhash : tileHash old.data = tileHash tile.data := by
        by_contra hne
        exact hagree tile htile ⟨old, hold, hkey, hne⟩
      have hdata := tileHash_inj hP (hheld old hold) (hsource tile htile) hhash
      have heq : old = tile := by
        cases old
        cases tile
        exact congr (congrArg Tile.mk hkey) hdata
      exact .inl (heq ▸ hold)
    · exact .inr ⟨htile, fun old hold heq => hkey ⟨old, hold, heq⟩⟩
  · exact .inl htile

/-- Tiles that are copied with different keys are written over the others, or the others are
written over them. -/
theorem inOrder_foldl_copied (hsource : source.Pairwise fun a b => a.key ≠ b.key)
    (hheld : held.Pairwise fun a b => a.key ≠ b.key)
    (hkeys : (source.foldl (copied onDuplicate) held).Pairwise fun a b => a.key ≠ b.key) :
    inOrder (source.foldl (copied onDuplicate) held) = merged onDuplicate source held := by
  refine (ascending_inOrder hkeys).ext (ascending_merged hsource hheld) fun tile => ?_
  rw [mem_inOrder]
  cases onDuplicate with
  | override => exact (mem_foldl_override hsource).trans mem_overlay.symm
  | ignore => exact (mem_foldl_of_ne_override (by decide) hsource).trans mem_overlay.symm
  | abort => exact (mem_foldl_of_ne_override (by decide) hsource).trans mem_overlay.symm

/-! ### Copying tile by tile -/

variable {t : Tileset} {file : String} {h : Holding} {s : Session} {P : Set Bytes} {check : Bool}

theorem staysOut_eq (hagree : onDuplicate = .abort → ¬ Conflicts held tile) :
    staysOut onDuplicate tile (held.find? fun old => old.key = tile.key) =
      .ok (skips onDuplicate held tile) := by
  cases hfind : held.find? fun old => old.key = tile.key with
  | none =>
      have hnone : (held.any fun old => old.key = tile.key) = false := by
        simpa using List.find?_eq_none.1 hfind
      rw [skips, hnone, Bool.and_false]
      cases onDuplicate <;> rfl
  | some old =>
      have hmem := List.mem_of_find?_eq_some hfind
      have hkey : old.key = tile.key := by simpa using List.find?_some hfind
      have hany : (held.any fun old => old.key = tile.key) = true :=
        List.any_eq_true.2 ⟨old, hmem, decide_eq_true hkey⟩
      rw [skips, hany]
      cases onDuplicate with
      | abort =>
          have hsame : tileHash old.data = tileHash tile.data := by
            by_contra hne
            exact hagree rfl ⟨old, hmem, hkey, hne⟩
          simp [staysOut, hsame]
      | _ => rfl

theorem staysOut_conflict (hheld : held.Pairwise fun a b => a.key ≠ b.key)
    (hconflict : Conflicts held tile) :
    staysOut .abort tile (held.find? fun old => old.key = tile.key) =
      .error (.fault (.tileConflict tile.key)) := by
  obtain ⟨old, hold, hkey, hne⟩ := hconflict
  cases hfind : held.find? fun old => old.key = tile.key with
  | none => exact absurd hkey (by simpa using List.find?_eq_none.1 hfind old hold)
  | some other =>
      have hotherKey : other.key = tile.key := by simpa using List.find?_some hfind
      obtain rfl := key_inj_of_pairwise hheld (List.mem_of_find?_eq_some hfind) hold
        (hotherKey.trans hkey.symm)
      simp [staysOut, hne]

theorem holds_account (hs : t.Holds file h s) (account : Account) :
    t.Holds file h { s with account } :=
  ⟨hs.file_eq, hs.writable, hs.contents, hs.valid, hs.knows⟩

/-- What the destination holds at the key of a tile, which it is not asked for if it holds no
tile. -/
theorem existing_spec (hs : t.Holds file h s) (hkey : tile.key.cells.all Cell.fits = true)
    (hcheck : check = false → ∀ old ∈ h.tiles, old.key ≠ tile.key) :
    Yields (if check then Action.query (t.entry? tile.key) else pure none) s fun existing s' =>
      existing = (h.tiles.find? fun old => old.key = tile.key) ∧ s' = s := by
  cases check with
  | true =>
      have hentry : t.entry? tile.key s.file s.contents =
          .ok (h.tiles.find? fun old => old.key = tile.key) := by
        rw [hs.contents]
        exact Tileset.tileAt_container s.file hs.valid hkey
      have hquery : Action.query (fun file c => t.entry? tile.key file c) s = .ok _ s :=
        Action.query_ok hentry
      exact .intro hquery ⟨rfl, rfl⟩
  | false =>
      have hnone : h.tiles.find? (fun old => old.key = tile.key) = none :=
        List.find?_eq_none.2 fun old hold => by simpa using hcheck rfl old hold
      exact .pure ⟨hnone.symm, rfl⟩

theorem put_account (hs : t.Holds file h s) (hbatch : Tileset.checkBatch t.batch = .ok ())
    (hkey : tile.key.cells.all Cell.fits = true) :
    Yields (t.put tile.key tile.data) s fun _ s' =>
      t.Holds file (h.put t.shape.layout tile.key tile.data) s' ∧ s'.account = s.account :=
  (Tileset.put_spec hs hkey tile.data hbatch).and_leaves
    (Tileset.preserves_put Session.apart_account tile.key tile.data s)

theorem copyTile_eq (t : Tileset) (onDuplicate : OnDuplicate) (check : Bool) (tile : Tile) :
    copyTile t onDuplicate check tile =
      Action.count (fun c => { c with read := c.read + 1 }) >>= fun _ =>
      (if check then Action.query (t.entry? tile.key) else pure none) >>= fun existing =>
      Action.ofExcept (staysOut onDuplicate tile existing) >>= fun out =>
        if out then Action.count fun c => { c with skipped := c.skipped + 1 }
        else t.put tile.key tile.data >>= fun _ =>
          Action.count fun c => { c with written := c.written + 1 } := by
  cases check <;> rfl

theorem copyTile_spec (hs : t.Holds file h s) (hbatch : Tileset.checkBatch t.batch = .ok ())
    (hP : Set.InjOn payloadHash P) (himages : ∀ image ∈ h.images, image ∈ P)
    (hkey : tile.key.cells.all Cell.fits = true) (hdata : ∀ bytes ∈ tile.data, bytes ∈ P)
    (hcheck : check = false → ∀ old ∈ h.tiles, old.key ≠ tile.key)
    (hagree : onDuplicate = .abort → ¬ Conflicts h.tiles tile) :
    Yields (copyTile t onDuplicate check tile) s fun _ s' => ∃ h', t.Holds file h' s' ∧
      Advances P h h' (copied onDuplicate h.tiles tile) ∧
      s'.account =
        { s.account with tiles := counted onDuplicate h.tiles s.account.tiles tile } := by
  rw [copyTile_eq]
  refine (Action.count_spec _ s).bind ?_
  rintro _ s₁ rfl
  have hs₁ := holds_account hs
    { s.account with tiles := { s.account.tiles with read := s.account.tiles.read + 1 } }
  refine (existing_spec hs₁ hkey hcheck).bind ?_
  rintro _ _ ⟨rfl, rfl⟩
  refine (Action.ofExcept_spec (staysOut_eq hagree) _).bind ?_
  rintro _ _ ⟨rfl, rfl⟩
  unfold copied counted
  cases skips onDuplicate h.tiles tile with
  | true =>
      simp only [if_true]
      refine (Action.count_spec _ _).mono ?_
      rintro _ _ rfl
      exact ⟨h, holds_account hs _, ⟨rfl, rfl, himages⟩, rfl⟩
  | false =>
      refine (put_account hs₁ hbatch hkey).bind fun _ s₂ ⟨hs₂, haccount⟩ => ?_
      refine (Action.count_spec _ s₂).mono ?_
      rintro _ _ rfl
      refine ⟨_, holds_account hs₂ _, put_advances hP himages t.shape.layout tile.key hdata, ?_⟩
      simp only [haccount]
      rfl

/-- A tile that conflicts with the one at its key is not copied. -/
theorem copyTile_conflict (hs : t.Holds file h s) (hkey : tile.key.cells.all Cell.fits = true)
    (hcheck : check = false → ∀ old ∈ h.tiles, old.key ≠ tile.key)
    (hconflict : Conflicts h.tiles tile) :
    FailsWith (copyTile t .abort check tile) s (.fault (.tileConflict tile.key)) := by
  rw [copyTile_eq]
  refine (Action.count_spec _ s).failsWith_bind ?_
  rintro _ s₁ rfl
  have hs₁ := holds_account hs
    { s.account with tiles := { s.account.tiles with read := s.account.tiles.read + 1 } }
  refine (existing_spec hs₁ hkey hcheck).failsWith_bind ?_
  rintro _ s₂ ⟨rfl, -⟩
  exact FailsWith.bind ⟨s₂, Action.ofExcept_error (staysOut_conflict hs.valid.keys hconflict) s₂⟩

/-- Whether a source can be copied: its keys differ and fit into a container, and no two of its
payloads and those that are held have the same hash. -/
structure Suits (P : Set Bytes) (h : Holding) (source : List Tile) : Prop where
  hashes : Set.InjOn payloadHash P
  images : ∀ image ∈ h.images, image ∈ P
  keys : source.Pairwise fun a b => a.key ≠ b.key
  fits : ∀ tile ∈ source, tile.key.cells.all Cell.fits = true
  payloads : ∀ tile ∈ source, ∀ data ∈ tile.data, data ∈ P

theorem Suits.left {before after : List Tile} (hsuits : Suits P h (before ++ after)) :
    Suits P h before where
  hashes := hsuits.hashes
  images := hsuits.images
  keys := (List.pairwise_append.1 hsuits.keys).1
  fits tile htile := hsuits.fits tile (List.mem_append_left _ htile)
  payloads tile htile := hsuits.payloads tile (List.mem_append_left _ htile)

theorem copyEach_spec (hs : t.Holds file h s) (hbatch : Tileset.checkBatch t.batch = .ok ())
    (hsuits : Suits P h source)
    (hcheck : check = false → ∀ tile ∈ source, ∀ old ∈ h.tiles, old.key ≠ tile.key)
    (hagree : onDuplicate = .abort → ∀ tile ∈ source, ¬ Conflicts h.tiles tile) :
    Yields (copyEach t onDuplicate check source) s fun _ s' => ∃ h', t.Holds file h' s' ∧
      Advances P h h' (source.foldl (copied onDuplicate) h.tiles) ∧
      s'.account = { s.account with
        tiles := source.foldl (counted onDuplicate h.tiles) s.account.tiles } := by
  obtain ⟨hP, himages, hkeys, hfits, hdata⟩ := hsuits
  induction source generalizing h s with
  | nil => exact .pure ⟨h, hs, ⟨rfl, rfl, himages⟩, rfl⟩
  | cons tile rest ih =>
      obtain ⟨hfirst, hrest⟩ := List.pairwise_cons.1 hkeys
      rw [List.forall_mem_cons] at hfits hdata
      refine (copyTile_spec hs hbatch hP himages hfits.1 hdata.1
        (fun h => hcheck h tile (List.mem_cons_self ..))
        fun h => hagree h tile (List.mem_cons_self ..)).bind ?_
      rintro _ s₁ ⟨h₁, hs₁, hadvance, haccount⟩
      -- the tiles that follow meet the same tiles at their keys as before
      have hcheck₁ (hno : check = false) :
          ∀ other ∈ rest, ∀ old ∈ h₁.tiles, old.key ≠ other.key := by
        intro other hother old hold hkey
        rw [hadvance.tiles_eq, mem_copied_of_ne (hkey.trans_ne (hfirst other hother).symm)] at hold
        exact hcheck hno other (List.mem_cons_of_mem _ hother) old hold hkey
      have hagree₁ (habort : onDuplicate = .abort) :
          ∀ other ∈ rest, ¬ Conflicts h₁.tiles other := by
        intro other hother
        rw [hadvance.tiles_eq, conflicts_copied (hfirst other hother).symm]
        exact hagree habort other (List.mem_cons_of_mem _ hother)
      refine (ih hs₁ hcheck₁ hagree₁ hadvance.images hrest hfits.2 hdata.2).mono ?_
      rintro _ s₂ ⟨h₂, hs₂, hadvance₂, haccount₂⟩
      refine ⟨h₂, hs₂, ⟨?_, ?_, hadvance₂.images⟩, ?_⟩
      · rw [hadvance₂.tiles_eq, hadvance.tiles_eq, List.foldl_cons]
      · rw [hadvance₂.metadata_eq, hadvance.metadata_eq]
      · simp only [haccount₂, haccount, hadvance.tiles_eq, List.foldl_cons,
          foldl_counted_copied fun other hother => hfirst other hother]

theorem copyEach_append (t : Tileset) (onDuplicate : OnDuplicate) (check : Bool)
    (before after : List Tile) :
    copyEach t onDuplicate check (before ++ after) =
      copyEach t onDuplicate check before >>= fun _ => copyEach t onDuplicate check after := by
  induction before with
  | nil => rfl
  | cons tile rest ih => simp only [List.cons_append, copyEach, ih, bind_assoc]

/-- Copying stops at the first tile of the source that conflicts with the one at its key. -/
theorem copyEach_conflict {before after : List Tile} (hs : t.Holds file h s)
    (hbatch : Tileset.checkBatch t.batch = .ok ()) (hsource : source = before ++ tile :: after)
    (hsuits : Suits P h source)
    (hcheck : check = false → ∀ tile ∈ source, ∀ old ∈ h.tiles, old.key ≠ tile.key)
    (hagree : ∀ other ∈ before, ¬ Conflicts h.tiles other) (hconflict : Conflicts h.tiles tile) :
    FailsWith (copyEach t .abort check source) s (.fault (.tileConflict tile.key)) := by
  subst hsource
  obtain ⟨-, -, hne⟩ := List.pairwise_append.1 hsuits.keys
  have hother : ∀ other ∈ before, tile.key ≠ other.key := fun other hother =>
    (hne other hother tile (List.mem_cons_self ..)).symm
  have htile : tile ∈ before ++ tile :: after := by simp
  rw [copyEach_append]
  refine (copyEach_spec hs hbatch hsuits.left
    (fun hno other hmem => hcheck hno other (List.mem_append_left _ hmem))
    fun _ => hagree).failsWith_bind ?_
  rintro _ s₁ ⟨h₁, hs₁, hadvance, -⟩
  refine (copyTile_conflict hs₁ (hsuits.fits tile htile) (fun hno old hold => ?_) ?_).bind
  · rw [hadvance.tiles_eq] at hold
    intro hkey
    exact hcheck hno tile htile old
      ((mem_foldl_copied_of_ne (hkey ▸ hother)).1 hold) hkey
  · rw [hadvance.tiles_eq]
    exact (conflicts_foldl_copied hother).2 hconflict

/-! ### The whole copy -/

/-- What a copy makes of a holding: the tiles of the source are merged into it, and their hash is
written down with the metadata. -/
structure Leads (onDuplicate : OnDuplicate) (source : List Tile) (h h' : Holding) : Prop where
  sorted : h'.sorted = merged onDuplicate source h.sorted
  metadata : ∀ name, h'.metadata.lookup name =
    if name = aggHashName then some (aggregateHash h'.sorted) else h.metadata.lookup name

/-- The account of a copy that has succeeded. -/
def account (onDuplicate : OnDuplicate) (source held : List Tile) : Account :=
  let skipped := source.countP (skips onDuplicate held)
  ⟨⟨source.length, source.length - skipped, skipped, 0, 0⟩, 0,
    .text (aggregateHash (merged onDuplicate source held))⟩

/-- An empty destination is not asked for tiles, and there are none in it. -/
theorem unchecked (h : Holding) (hcheck : (!h.tiles.isEmpty) = false) :
    ∀ tile ∈ source, ∀ old ∈ h.tiles, old.key ≠ tile.key := by
  intro tile _ old hold
  rw [Bool.not_eq_false', List.isEmpty_iff] at hcheck
  rw [hcheck] at hold
  cases hold

theorem isEmpty_spec (hs : t.Holds file h s) :
    Yields (Action.query t.isEmpty) s fun empty s' => empty = h.tiles.isEmpty ∧ s' = s := by
  refine Action.query_spec ?_
  rw [hs.contents]
  exact Tileset.isEmpty_container s.file h

theorem copyTiles_spec (hs : t.Holds file h s) (hbatch : Tileset.checkBatch t.batch = .ok ())
    (hstart : s.account = .start) (hsuits : Suits P h source)
    (hagree : onDuplicate = .abort → ∀ tile ∈ source, ¬ Conflicts h.tiles tile) :
    Yields (copyTiles t onDuplicate (.ofList source)) s fun _ s' => ∃ h', t.Holds file h' s' ∧
      Leads onDuplicate source h h' ∧ s'.account = account onDuplicate source h.sorted := by
  refine (isEmpty_spec hs).bind ?_
  rintro _ _ ⟨rfl, rfl⟩
  refine (copyEach_spec hs hbatch hsuits (unchecked h) hagree).bind ?_
  rintro _ s₁ ⟨h₁, hs₁, hadvance, haccount₁⟩
  refine (Action.ofExcept_spec (a := source) rfl s₁).bind ?_
  rintro _ s₁ ⟨-, rfl⟩
  refine ((Tileset.finalize_spec hs₁).and_leaves
    (Tileset.preserves_finalize Session.apart_account _)).bind ?_
  rintro _ s₂ ⟨hs₂, haccount₂⟩
  have hsorted : h₁.finalize.sorted = merged onDuplicate source h.sorted := by
    have hkeys := hs₁.valid.keys
    rw [hadvance.tiles_eq] at hkeys
    show inOrder h₁.tiles = _
    rw [hadvance.tiles_eq, inOrder_foldl_copied hsuits.keys hs.valid.keys hkeys]
    exact (merged_inOrder hsuits.keys hs.valid.keys).symm
  refine (Action.query_spec (a := aggregateHash h₁.finalize.sorted) ?_).bind ?_
  · rw [hs₂.contents]
    exact Tileset.aggregate_container s₂.file hs₂.valid hbatch
  rintro _ s₂ ⟨rfl, rfl⟩
  refine (Action.note_spec _ s₂).bind ?_
  rintro _ _ rfl
  refine ((Tileset.putMetadata_spec (holds_account hs₂ _) aggHashName
    (some (aggregateHash h₁.finalize.sorted))).and_leaves
    (Tileset.preserves_putMetadata Session.apart_account _ _ _)).mono ?_
  rintro _ s₃ ⟨hs₃, haccount₃⟩
  refine ⟨_, hs₃, ⟨hsorted, fun name => ?_⟩, ?_⟩
  · rw [Holding.lookup_putMetadata]
    show _ = if name = aggHashName then some (aggregateHash h₁.finalize.sorted) else _
    rw [← hadvance.metadata_eq]
    rfl
  · have hskips : skips onDuplicate h.sorted = skips onDuplicate h.tiles :=
      funext fun _ => skips_inOrder
    simp only [haccount₃, haccount₂, haccount₁, hstart, hsorted, hskips, foldl_counted, account,
      Account.start, TileCounters.zero, Nat.zero_add]

/-- A copy that is to be aborted names the first tile of the source that conflicts with one in the
destination. -/
theorem copyTiles_conflict {before after : List Tile} (hs : t.Holds file h s)
    (hbatch : Tileset.checkBatch t.batch = .ok ()) (hsource : source = before ++ tile :: after)
    (hsuits : Suits P h source) (hagree : ∀ other ∈ before, ¬ Conflicts h.tiles other)
    (hconflict : Conflicts h.tiles tile) :
    FailsWith (copyTiles t .abort (.ofList source)) s (.fault (.tileConflict tile.key)) := by
  refine (isEmpty_spec hs).failsWith_bind ?_
  rintro _ _ ⟨rfl, rfl⟩
  exact (copyEach_conflict hs hbatch hsource hsuits (unchecked h) hagree hconflict).bind

/-- Whether a copy finds a holding in a layout at its destination: an empty container becomes one
of the layout that is asked for. -/
def Finds (contents : Container) (requested layout : Layout) (h : Holding) : Prop :=
  contents = .empty ∧ layout = requested ∧ h = .empty ∨ contents = layout.container h

theorem destination_spec {source layout : Layout} {requested : Option Layout} {batch : Int}
    (hfinds : Finds s.contents (requested.getD source) layout h) (hvalid : h.Valid layout)
    (hwritable : s.writable = true) :
    Yields (destination source requested batch) s fun t s' => t = ⟨layout.shape, batch⟩ ∧
      t.Holds s.file h s' ∧ s'.account = s.account := by
  rcases hfinds with ⟨hempty, rfl, rfl⟩ | hcontents
  · have hisEmpty : s.contents.isEmpty = true := by rw [hempty]; rfl
    have hrun : destination source requested batch s =
        Tileset.createIn (requested.getD source) batch s := by
      simp only [destination, bind_apply, get_apply, hisEmpty, if_true]
    refine .intro (hrun.trans (Tileset.createIn_run _ batch hempty hwritable)) ⟨rfl, ?_, rfl⟩
    exact ⟨rfl, hwritable, rfl, hvalid, by simp⟩
  · have hisEmpty : s.contents.isEmpty = false := by
      rw [hcontents]
      cases layout <;> rfl
    let opened : Session := { s with images := none }
    have hopened (notices : List Notice) : Tileset.Holds ⟨layout.shape, batch⟩ s.file h
        { opened with notices } := ⟨rfl, hwritable, hcontents, hvalid, by simp [opened]⟩
    have hopen : Tileset.openIn batch s = .ok ⟨layout.shape, batch⟩ opened :=
      Tileset.openIn_run batch hcontents
    have hrun : ∃ notices, destination source requested batch s =
        .ok ⟨layout.shape, batch⟩ { opened with notices } := by
      simp only [destination, bind_apply, get_apply, hisEmpty, Bool.false_eq_true, if_false, hopen]
      cases requested with
      | none => exact ⟨s.notices, rfl⟩
      | some other =>
          by_cases hother : other = layout.shape.layout
          · simp only [hother, if_true]
            exact ⟨s.notices, rfl⟩
          · simp only [hother, if_false]
            exact ⟨_, rfl⟩
    obtain ⟨notices, hrun⟩ := hrun
    exact .intro hrun ⟨rfl, hopened notices, rfl⟩

theorem copyInto_tiles {options : CopyOptions} (htype : options.copyType = .tiles) (batch : Int)
    (shape : Shape) (metadata : Except Failure Metadata) (tiles : Scan Tile) :
    copyInto options batch shape metadata tiles =
      destination shape.layout options.layout batch >>= fun t =>
        copyTiles t options.onDuplicate tiles := by
  simp only [copyInto, htype]
  rfl

section CopyInto

variable {options : CopyOptions} {batch : Int} {shape : Shape} {layout : Layout}
  {metadata : Except Failure Metadata}

theorem copyInto_spec (htype : options.copyType = .tiles)
    (hfinds : Finds s.contents (options.layout.getD shape.layout) layout h)
    (hvalid : h.Valid layout) (hwritable : s.writable = true) (hstart : s.account = .start)
    (hbatch : Tileset.checkBatch batch = .ok ()) (hsuits : Suits P h source)
    (hagree : options.onDuplicate = .abort → ∀ tile ∈ source, ¬ Conflicts h.tiles tile) :
    Yields (copyInto options batch shape metadata (.ofList source)) s fun _ s' =>
      ∃ h', s'.contents = layout.container h' ∧ h'.Valid layout ∧
        Leads options.onDuplicate source h h' ∧
        s'.account = account options.onDuplicate source h.sorted := by
  rw [copyInto_tiles htype]
  refine (destination_spec hfinds hvalid hwritable).bind ?_
  rintro _ s₁ ⟨rfl, hs₁, haccount⟩
  refine (copyTiles_spec hs₁ hbatch (haccount.trans hstart) hsuits hagree).mono ?_
  rintro _ s₂ ⟨h', hs₂, hleads, haccount₂⟩
  exact ⟨h', hs₂.contents, hs₂.valid, hleads, haccount₂⟩

theorem copyInto_conflict {before after : List Tile} (htype : options.copyType = .tiles)
    (hfinds : Finds s.contents (options.layout.getD shape.layout) layout h)
    (hvalid : h.Valid layout) (hwritable : s.writable = true)
    (hbatch : Tileset.checkBatch batch = .ok ()) (habort : options.onDuplicate = .abort)
    (hsource : source = before ++ tile :: after) (hsuits : Suits P h source)
    (hagree : ∀ other ∈ before, ¬ Conflicts h.tiles other) (hconflict : Conflicts h.tiles tile) :
    FailsWith (copyInto options batch shape metadata (.ofList source)) s
      (.fault (.tileConflict tile.key)) := by
  rw [copyInto_tiles htype, habort]
  refine (destination_spec hfinds hvalid hwritable).failsWith_bind ?_
  rintro _ s₁ ⟨rfl, hs₁, -⟩
  exact copyTiles_conflict hs₁ hbatch hsource hsuits hagree hconflict

end CopyInto

end Copy

end TileAtlas
