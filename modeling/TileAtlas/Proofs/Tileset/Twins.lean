import TileAtlas.Proofs.Container.InStep
import TileAtlas.Proofs.Patch.Apply
import TileAtlas.Proofs.Tileset.MetadataRows
import TileAtlas.Proofs.Tileset.Untouched

/-!
# Twin tilesets

Two open tilesets of one layout hold the same tiles beside the same rows of metadata.  Their tiles
may be stored in different orders, either of them may store images that no tile uses any more, and
they may know different images.  As long as no two different images have the same hash, every store
operation does the same to both.
-/

namespace TileAtlas

open TileAtlas.Action

theorem payloadAt_of_perm {tiles tiles' : List Tile} (hperm : tiles.Perm tiles')
    (h : tiles.Pairwise fun a b => a.key ≠ b.key) (key : TileKey) :
    payloadAt tiles key = payloadAt tiles' key := by
  have h' : tiles'.Pairwise fun a b => a.key ≠ b.key :=
    (hperm.pairwise_iff fun hab => Ne.symm hab).1 h
  ext data
  simp only [payloadAt_eq_some h, payloadAt_eq_some h', hperm.mem_iff]

namespace Session

/-- What a session tells of besides its contents: its file and what an operation reports. -/
def label (s : Session) : String × Account × List Notice := (s.file, s.account, s.notices)

theorem apart_label : Apart label := fun _ _ _ => rfl

/-- Whether two sessions report the same of an operation. -/
def SameReport (s s' : Session) : Prop := s.account = s'.account ∧ s.notices = s'.notices

end Session

/-- A value is put under a name, or is not, in one file as in another. -/
theorem Layout.putRow_alike (file file' : String) (rows : List Row) (name value : Cell) :
    (putRow file rows name value).2 = (putRow file' rows name value).2 ∧
      ((putRow file rows name value).1 = .ok () ∧ (putRow file' rows name value).1 = .ok () ∨
        ∃ failure failure', (putRow file rows name value).1 = .error failure ∧
          (putRow file' rows name value).1 = .error failure' ∧
          failure.Alike file file' failure') := by
  unfold putRow
  dsimp only
  split
  · split
    · exact ⟨rfl, .inl ⟨rfl, rfl⟩⟩
    · split
      · split
        · exact ⟨rfl, .inr ⟨_, _, rfl, rfl, .statement _⟩⟩
        · exact ⟨rfl, .inl ⟨rfl, rfl⟩⟩
      · exact ⟨rfl, .inr ⟨_, _, rfl, rfl, .same _⟩⟩
  · exact ⟨rfl, .inr ⟨_, _, rfl, rfl, .same _⟩⟩

namespace Tileset

variable {t : Tileset} {P : Set Bytes} {rows : List Row} {tiles : List Tile} {s s' : Session}
  {key : TileKey} {data : Option Bytes}

/-! ### One tileset -/

/-- Whether an open tileset holds some tiles, in any order, beside some rows of metadata. -/
def Keeps (t : Tileset) (P : Set Bytes) (rows : List Row) (tiles : List Tile) (s : Session) :
    Prop :=
  ∃ h, t.HoldsBeside rows h s ∧ h.tiles.Perm tiles ∧ ∀ image ∈ h.images, image ∈ P

/-- The tiles after a tile has been put at a key. -/
def putTile (tiles : List Tile) (tile : Tile) : List Tile :=
  (tiles.filter fun old => !decide (old.key = tile.key)) ++ [tile]

namespace Keeps

theorem of_eq (hs : t.Keeps P rows tiles s) (hwritable : s'.writable = s.writable)
    (hcontents : s'.contents = s.contents) (himages : s'.images = s.images) :
    t.Keeps P rows tiles s' := by
  obtain ⟨h, hs, hrest⟩ := hs
  exact ⟨h, hs.of_eq hwritable hcontents himages, hrest⟩

theorem aggregate (hs : t.Keeps P rows tiles s) (hbatch : checkBatch t.batch = .ok ()) :
    Yields (query t.aggregate) s fun hash s' =>
      hash = aggregateHash (inOrder tiles) ∧ t.Keeps P rows tiles s' := by
  obtain ⟨h, hs, hperm, himages⟩ := hs
  refine (hs.aggregate_spec hbatch).mono ?_
  rintro _ _ ⟨rfl, rfl⟩
  exact ⟨by rw [Holding.sorted, inOrder_eq_of_perm hperm hs.valid.keys], h, hs, hperm, himages⟩

theorem entry (hs : t.Keeps P rows tiles s) (hkey : key.cells.all Cell.fits = true) :
    Yields (query (t.entry? key)) s fun found s' =>
      found.bind (·.data) = payloadAt tiles key ∧ t.Keeps P rows tiles s' := by
  obtain ⟨h, hs, hperm, himages⟩ := hs
  have hfound : t.entry? key s.file s.contents =
      .ok (h.tiles.find? fun tile => tile.key = key) := by
    rw [hs.contents, Layout.containerWith, entry_setMetadata rfl]
    exact tileAt_container s.file hs.valid hkey
  refine (query_spec hfound).mono ?_
  rintro _ _ ⟨rfl, rfl⟩
  exact ⟨payloadAt_of_perm hperm hs.valid.keys key, h, hs, hperm, himages⟩

theorem entry_unfit (hs : t.Keeps P rows tiles s) (hkey : key.cells.all Cell.fits = false) :
    query (t.entry? key) s = .error .outOfRange s := by
  obtain ⟨h, hs, -⟩ := hs
  refine query_error ?_
  rw [hs.contents, Layout.containerWith, entry_setMetadata rfl]
  exact tileAt_error s.file hs.valid hkey

theorem delete (hs : t.Keeps P rows tiles s) (hkey : key.cells.all Cell.fits = true) :
    Yields (t.delete key) s fun _ s' =>
      t.Keeps P rows (tiles.filter fun tile => !decide (tile.key = key)) s' := by
  obtain ⟨h, hs, hperm, himages⟩ := hs
  refine (hs.yields (Q := fun _ h' => h' = h.delete key) (ignores_delete t key)
    fun s₀ hs₀ => (delete_spec hs₀ hkey).mono fun _ _ hs' => ⟨_, rfl, hs'⟩).mono ?_
  rintro _ s' ⟨_, rfl, hs'⟩
  exact ⟨_, hs', hperm.filter _, himages⟩

theorem delete_unfit (hs : t.Keeps P rows tiles s) (hkey : key.cells.all Cell.fits = false) :
    t.delete key s = .error .outOfRange s := by
  obtain ⟨h, hs, -⟩ := hs
  obtain ⟨s₀, hs₀, heq, -⟩ := hs.exists_holds
  rw [heq, ignores_delete t key s₀, Tileset.delete_unfit hs₀ hkey]

theorem put (hs : t.Keeps P rows tiles s) (hbatch : checkBatch t.batch = .ok ())
    (hP : Set.InjOn payloadHash P) (hkey : key.cells.all Cell.fits = true)
    (hdata : ∀ bytes ∈ data, bytes ∈ P) :
    Yields (t.put key data) s fun _ s' => t.Keeps P rows (putTile tiles ⟨key, data⟩) s' := by
  obtain ⟨h, hs, hperm, himages⟩ := hs
  refine (hs.yields (Q := fun _ h' => h' = h.put t.shape.layout key data) (ignores_put t key data)
    fun s₀ hs₀ => (put_spec hs₀ hkey data hbatch).mono fun _ _ hs' => ⟨_, rfl, hs'⟩).mono ?_
  rintro _ s' ⟨_, rfl, hs'⟩
  have hput := put_advances hP himages t.shape.layout key hdata
  refine ⟨_, hs', ?_, hput.images⟩
  rw [hput.tiles_eq]
  exact (hperm.filter _).append_right _

theorem put_unfit (hs : t.Keeps P rows tiles s) (hkey : key.cells.all Cell.fits = false)
    (data : Option Bytes) : t.put key data s = .error .outOfRange s := by
  rw [Tileset.put, bind_apply, hs.delete_unfit hkey]

/-- Tiles at new keys are put one after the other. -/
theorem putAll (items : List Tile) (hs : t.Keeps P rows tiles s)
    (hbatch : checkBatch t.batch = .ok ()) (hP : Set.InjOn payloadHash P)
    (hkeys : (tiles ++ items).Pairwise fun a b => a.key ≠ b.key)
    (hfits : ∀ tile ∈ items, tile.key.cells.all Cell.fits = true)
    (hdata : ∀ tile ∈ items, ∀ bytes ∈ tile.data, bytes ∈ P) :
    Yields (t.putAll items) s fun _ s' => t.Keeps P rows (tiles ++ items) s' := by
  induction items generalizing tiles s with
  | nil => exact .pure (by rwa [List.append_nil])
  | cons tile rest ih =>
      obtain ⟨hfirst, hrest⟩ := List.forall_mem_cons.1 hfits
      obtain ⟨hfirstData, hrestData⟩ := List.forall_mem_cons.1 hdata
      refine (hs.put hbatch hP hfirst hfirstData).bind fun _ s₁ hs₁ => ?_
      have hnew : putTile tiles tile = tiles ++ [tile] := by
        rw [putTile, List.filter_eq_self.2 fun old hold => ?_]
        have hne := (List.pairwise_append.1 hkeys).2.2 old hold tile (List.mem_cons_self ..)
        simpa using hne
      rw [hnew] at hs₁
      rw [List.append_cons] at hkeys ⊢
      exact ih hs₁ hkeys hrest hrestData

theorem finalize (hs : t.Keeps P rows tiles s) :
    Yields t.finalize s fun _ s' => t.Keeps P rows tiles s' := by
  obtain ⟨h, hs, hperm, himages⟩ := hs
  exact (finalize_beside hs).mono fun _ s' hs' =>
    ⟨h.finalize, hs', hperm, fun image himage => himages image (List.mem_of_mem_filter himage)⟩

theorem metadata_eq (hs : t.Keeps P rows tiles s) (file : String) :
    Tileset.metadata file s.contents = .ok (Layout.readMetadata rows) := by
  obtain ⟨h, hs, -⟩ := hs
  rw [hs.contents]
  exact metadata_containerWith file _ rows h

theorem metadata (hs : t.Keeps P rows tiles s) :
    Yields (query Tileset.metadata) s fun m s' =>
      m = Layout.readMetadata rows ∧ t.Keeps P rows tiles s' := by
  refine (query_spec (hs.metadata_eq s.file)).mono ?_
  rintro _ _ ⟨rfl, rfl⟩
  exact ⟨rfl, hs⟩

end Keeps

/-! ### Two tilesets -/

/-- Whether two open tilesets hold the same, each in its own file, and report the same. -/
structure Twins (t : Tileset) (P : Set Bytes) (file file' : String) (rows : List Row)
    (tiles : List Tile) (s s' : Session) : Prop where
  left : t.Keeps P rows tiles s
  right : t.Keeps P rows tiles s'
  file_left : s.file = file
  file_right : s'.file = file'
  report : s.SameReport s'

section Twins

variable {α : Type} {x : Action α} {file file' : String} {rows' : List Row} {tiles' : List Tile}
  {name value : Cell}

theorem Twins.of_label {u u' : Session} (hs : t.Twins P file file' rows tiles s s')
    (hleft : t.Keeps P rows' tiles' u) (hright : t.Keeps P rows' tiles' u')
    (hu : u.label = s.label) (hu' : u'.label = s'.label) :
    t.Twins P file file' rows' tiles' u u' := by
  obtain ⟨hfile, haccount, hnotices⟩ := by simpa only [Session.label, Prod.mk.injEq] using hu
  obtain ⟨hfile', haccount', hnotices'⟩ := by simpa only [Session.label, Prod.mk.injEq] using hu'
  refine ⟨hleft, hright, hfile.trans hs.file_left, hfile'.trans hs.file_right, ?_, ?_⟩
  · rw [haccount, haccount', hs.report.1]
  · rw [hnotices, hnotices', hs.report.2]

/-- Work that does the same to what either tileset holds, and reports nothing, is in step. -/
theorem Twins.inStep {V : α → Prop} (hs : t.Twins P file file' rows tiles s s')
    (hx : Preserves Session.label x)
    (hspec : ∀ s, t.Keeps P rows tiles s → Yields x s fun a u => V a ∧ t.Keeps P rows' tiles' u) :
    InStep file file' x x s s' (fun a b u u' =>
      V a ∧ V b ∧ t.Twins P file file' rows' tiles' u u') Session.SameReport :=
  .of_yields ((hspec s hs.left).and_leaves (hx s)) ((hspec s' hs.right).and_leaves (hx s'))
    fun _ _ _ _ ⟨⟨ha, hleft⟩, hlabel⟩ ⟨⟨hb, hright⟩, hlabel'⟩ =>
      ⟨ha, hb, hs.of_label hleft hright hlabel hlabel'⟩

theorem Twins.inStep_of_keeps (hs : t.Twins P file file' rows tiles s s')
    (hx : Preserves Session.label x)
    (hspec : ∀ s, t.Keeps P rows tiles s → Yields x s fun _ u => t.Keeps P rows' tiles' u) :
    InStep file file' x x s s' (fun _ _ u u' => t.Twins P file file' rows' tiles' u u')
      Session.SameReport :=
  (hs.inStep (V := fun _ => True) hx fun s hs =>
    (hspec s hs).mono fun _ _ hs' => ⟨trivial, hs'⟩).mono (fun _ _ _ _ h => h.2.2) fun _ _ h => h

theorem aggregate_inStep (hs : t.Twins P file file' rows tiles s s')
    (hbatch : checkBatch t.batch = .ok ()) :
    InStep file file' (query t.aggregate) (query t.aggregate) s s' (fun hash hash' u u' =>
      hash = hash' ∧ t.Twins P file file' rows tiles u u') Session.SameReport :=
  (hs.inStep (preserves_query _) fun _ hs => hs.aggregate hbatch).mono
    (fun _ _ _ _ ⟨ha, hb, hs⟩ => ⟨ha.trans hb.symm, hs⟩) fun _ _ h => h

theorem entry_inStep (hs : t.Twins P file file' rows tiles s s') (key : TileKey) :
    InStep file file' (query (t.entry? key)) (query (t.entry? key)) s s' (fun found found' u u' =>
      (found.bind (·.data) = payloadAt tiles key ∧ found'.bind (·.data) = payloadAt tiles key) ∧
        t.Twins P file file' rows tiles u u') Session.SameReport := by
  cases hkey : key.cells.all Cell.fits with
  | false => exact .of_error (hs.left.entry_unfit hkey) (hs.right.entry_unfit hkey) hs.report
  | true =>
      exact (hs.inStep (preserves_query _) fun _ hs => hs.entry hkey).mono
        (fun _ _ _ _ ⟨ha, hb, hs⟩ => ⟨⟨ha, hb⟩, hs⟩) fun _ _ h => h

theorem delete_inStep (hs : t.Twins P file file' rows tiles s s') (key : TileKey) :
    InStep file file' (t.delete key) (t.delete key) s s' (fun _ _ u u' => t.Twins P file file' rows
      (tiles.filter fun tile => !decide (tile.key = key)) u u') Session.SameReport := by
  cases hkey : key.cells.all Cell.fits with
  | false => exact .of_error (hs.left.delete_unfit hkey) (hs.right.delete_unfit hkey) hs.report
  | true =>
      exact hs.inStep_of_keeps (preserves_delete Session.apart_label key) fun _ hs => hs.delete hkey

theorem put_inStep (hs : t.Twins P file file' rows tiles s s')
    (hbatch : checkBatch t.batch = .ok ()) (hP : Set.InjOn payloadHash P) (key : TileKey)
    (hdata : ∀ bytes ∈ data, bytes ∈ P) :
    InStep file file' (t.put key data) (t.put key data) s s' (fun _ _ u u' =>
      t.Twins P file file' rows (putTile tiles ⟨key, data⟩) u u') Session.SameReport := by
  cases hkey : key.cells.all Cell.fits with
  | false => exact .of_error (hs.left.put_unfit hkey data) (hs.right.put_unfit hkey data) hs.report
  | true =>
      exact hs.inStep_of_keeps (preserves_put Session.apart_label key data) fun _ hs =>
        hs.put hbatch hP hkey hdata

theorem finalize_inStep (hs : t.Twins P file file' rows tiles s s') :
    InStep file file' t.finalize t.finalize s s' (fun _ _ u u' =>
      t.Twins P file file' rows tiles u u') Session.SameReport :=
  hs.inStep_of_keeps (preserves_finalize Session.apart_label) fun _ hs => hs.finalize

theorem notify_inStep (hs : t.Twins P file file' rows tiles s s') (notices : List Notice) :
    InStep file file' (notify notices) (notify notices) s s' (fun _ _ u u' =>
      t.Twins P file file' rows tiles u u') Session.SameReport :=
  .modify ⟨hs.left.of_eq rfl rfl rfl, hs.right.of_eq rfl rfl rfl, hs.file_left, hs.file_right,
    hs.report.1, congrArg (· ++ notices) hs.report.2⟩

theorem note_inStep (hs : t.Twins P file file' rows tiles s s') (change : Account → Account) :
    InStep file file' (note change) (note change) s s' (fun _ _ u u' =>
      t.Twins P file file' rows tiles u u') Session.SameReport :=
  .modify ⟨hs.left.of_eq rfl rfl rfl, hs.right.of_eq rfl rfl rfl, hs.file_left, hs.file_right,
    congrArg change hs.report.1, hs.report.2⟩

theorem putMetadata_inStep (hs : t.Twins P file file' rows tiles s s') (name value : Cell) :
    InStep file file' (putMetadata name value) (putMetadata name value) s s' (fun _ _ u u' =>
      t.Twins P file file' (Layout.putRow file rows name value).2 tiles u u')
      Session.SameReport := by
  obtain ⟨⟨h, hleft, hrest⟩, ⟨h', hright, hrest'⟩, rfl, rfl, hreport⟩ := hs
  have hput := putMetadata_beside hleft name value
  have hput' := putMetadata_beside hright name value
  obtain ⟨hrows, hends⟩ := Layout.putRow_alike s.file s'.file rows name value
  rw [← hrows] at hput'
  unfold InStep
  rcases hends with ⟨hok, hok'⟩ | ⟨failure, failure', herror, herror', halike⟩
  · rw [hok] at hput
    rw [hok'] at hput'
    rw [attempt_eq_ok.1 hput, attempt_eq_ok.1 hput']
    exact .ok ⟨⟨h, ⟨hleft.writable, rfl, hleft.valid, hleft.knows⟩, hrest⟩,
      ⟨h', ⟨hright.writable, rfl, hright.valid, hright.knows⟩, hrest'⟩, rfl, rfl, hreport⟩
  · rw [herror] at hput
    rw [herror'] at hput'
    rw [attempt_eq_error.1 hput, attempt_eq_error.1 hput']
    exact .error halike hreport

/-- Changes of the metadata are merged in step. -/
theorem mergeFrom_inStep (policy : MergePolicy) {changes : List MetadataChange} {current : Metadata}
    (hs : t.Twins P file file' rows tiles s s') :
    InStep file file' (mergeFrom policy current changes) (mergeFrom policy current changes) s s'
      (fun taken taken' u u' => taken = taken' ∧ ∃ rows, t.Twins P file file' rows tiles u u')
      Session.SameReport := by
  induction changes generalizing current rows s s' with
  | nil => exact .pure ⟨rfl, rows, hs⟩
  | cons change rest ih =>
      refine (notify_inStep hs change.notices).bind fun _ _ s₁ s₁' hs₁ => ?_
      cases change.resolve policy (current.get? change.name) with
      | error fault => exact .throw _ hs₁.report
      | ok taken =>
          cases taken with
          | false => exact ih hs₁
          | true =>
              refine (putMetadata_inStep hs₁ change.name change.value).bind
                fun _ _ s₂ s₂' hs₂ => ?_
              refine (ih hs₂).bind ?_
              rintro taken _ s₃ s₃' ⟨rfl, hs₃⟩
              exact .pure ⟨rfl, hs₃⟩

theorem merge_inStep (policy : MergePolicy) (changes : List MetadataChange)
    (hs : t.Twins P file file' rows tiles s s') :
    InStep file file' (merge policy changes) (merge policy changes) s s'
      (fun taken taken' u u' => taken = taken' ∧ ∃ rows, t.Twins P file file' rows tiles u u')
      Session.SameReport := by
  refine (hs.inStep (preserves_query _) fun _ hs => hs.metadata).bind ?_
  rintro _ _ s₁ s₁' ⟨rfl, rfl, hs₁⟩
  exact mergeFrom_inStep policy hs₁

end Twins

end Tileset

end TileAtlas
