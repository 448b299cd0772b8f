import TileAtlas.Proofs.Container.Inversion
import TileAtlas.Proofs.Tileset.Merge
import TileAtlas.Proofs.Tileset.Sound
import TileAtlas.Proofs.Tileset.Scanned

/-!
# Tilesets whatever their metadata

A layout is created and store operations are carried out, where names and values of metadata may be
cells of any kind.  Such a tileset holds its tiles beside some rows of metadata.  Whatever work is
made up of store operations leaves such a tileset behind, however it ends.
-/

namespace TileAtlas

open TileAtlas.Action

/-- The open tilesets that come of a layout by store operations, whether they succeed or fail, and
by opening what is in the container again.  What is noted beside the contents does not matter. -/
inductive Tileset.Made : Tileset → Session → Prop
  | created {t : Tileset} {s s' : Session} {layout : Layout} {batch : Int} :
      s.contents = .empty → s.writable = true → createIn layout batch s = .ok t s' → Made t s'
  | opened {t t' : Tileset} {s fresh s' : Session} {batch : Int} :
      Made t s → fresh.contents = s.contents → fresh.writable = true →
      openIn batch fresh = .ok t' s' → Made t' s'
  | put {t : Tileset} {s : Session} (key : TileKey) (data : Option Bytes) :
      Made t s → Made t (attempt (t.put key data) s).2
  | delete {t : Tileset} {s : Session} (key : TileKey) :
      Made t s → Made t (attempt (t.delete key) s).2
  | finalize {t : Tileset} {s : Session} : Made t s → Made t (attempt t.finalize s).2
  | putMetadata {t : Tileset} {s : Session} (name value : Cell) :
      Made t s → Made t (attempt (Tileset.putMetadata name value) s).2
  | aside {t : Tileset} {s s' : Session} : Made t s → s'.writable = s.writable →
      s'.contents = s.contents → s'.images = s.images → Made t s'

/-- Whether a container has been made by creating a layout and by store operations alone. -/
def Container.Made (c : Container) : Prop := ∃ t s, Tileset.Made t s ∧ s.contents = c

namespace Tileset

variable {t : Tileset} {rows : List Row} {h : Holding} {s : Session} {key : TileKey}

theorem delete_leaves_beside (hs : t.HoldsBeside rows h s) (key : TileKey) :
    Leaves (t.delete key) s fun s' => ∃ h', t.HoldsBeside rows h' s' := by
  refine (hs.ends (Q := fun _ _ => True) (E := fun _ => True) (ignores_delete t key)
    fun s₀ hs₀ _ => ?_).mono (fun _ _ ⟨h', _, hs'⟩ => ⟨h', hs'⟩) fun _ ⟨h', _, hs'⟩ => ⟨h', hs'⟩
  exact (delete_leaves hs₀ key).mono (fun _ _ ⟨h', hs'⟩ => ⟨h', trivial, hs'⟩)
    fun _ ⟨h', hs'⟩ => ⟨h', trivial, hs'⟩

theorem openIn_containerWith (batch : Int) {layout : Layout}
    (hcontents : s.contents = layout.containerWith rows h) :
    openIn batch s = .ok ⟨layout.shape, batch⟩ { s with images := none } := by
  have hdetect : query detect s = .ok layout.shape s :=
    query_ok (by rw [hcontents]; exact Layout.detect_containerWith s.file layout rows h)
  simp only [openIn, attach, bind_apply, hdetect, modify_apply, pure_apply]

theorem openIn_beside (batch : Int) {layout : Layout} (hvalid : h.Valid layout)
    (hcontents : s.contents = layout.containerWith rows h) (hwritable : s.writable = true) :
    Yields (openIn batch) s fun t s' => t = ⟨layout.shape, batch⟩ ∧ t.HoldsBeside rows h s' :=
  .intro (openIn_containerWith batch hcontents) ⟨rfl, hwritable, hcontents, hvalid, by simp⟩

/-- A tileset that has been made holds its tiles beside some rows of metadata. -/
theorem Made.holds (ht : t.Made s) :
    (∃ rows h, t.HoldsBeside rows h s) ∧ t.shape = t.shape.layout.shape := by
  induction ht with
  | created hempty hwritable hcreate =>
      obtain ⟨_, _, hok, rfl, hs⟩ := createIn_spec _ _ hempty hwritable
      obtain ⟨rfl, rfl⟩ := EStateM.Result.ok.inj (hcreate.symm.trans hok)
      exact ⟨⟨_, _, hs.besideMetadata⟩, rfl⟩
  | opened _ hcontents hwritable hopen ih =>
      obtain ⟨⟨rows, h, hs⟩, -⟩ := ih
      obtain ⟨_, _, hok, rfl, hs'⟩ :=
        openIn_beside _ hs.valid (hcontents.trans hs.contents) hwritable
      obtain ⟨rfl, rfl⟩ := EStateM.Result.ok.inj (hopen.symm.trans hok)
      exact ⟨⟨rows, h, hs'⟩, rfl⟩
  | put key data _ ih =>
      obtain ⟨⟨rows, h, hs⟩, hshape⟩ := ih
      exact ⟨⟨rows, leaves_iff.1 ((put_beside hs key data).mono (fun _ _ hs' => ⟨_, hs'⟩)
        fun _ hs' => hs')⟩, hshape⟩
  | delete key _ ih =>
      obtain ⟨⟨rows, h, hs⟩, hshape⟩ := ih
      exact ⟨⟨rows, leaves_iff.1 (delete_leaves_beside hs key)⟩, hshape⟩
  | finalize _ ih =>
      obtain ⟨⟨rows, h, hs⟩, hshape⟩ := ih
      exact ⟨⟨rows, _, leaves_iff.1 (finalize_beside hs).ends⟩, hshape⟩
  | putMetadata name value _ ih =>
      obtain ⟨⟨rows, h, hs⟩, hshape⟩ := ih
      exact ⟨⟨_, h, leaves_iff.1 (putMetadata_leaves hs name value)⟩, hshape⟩
  | aside _ hwritable hcontents himages ih =>
      obtain ⟨⟨rows, h, hs⟩, hshape⟩ := ih
      exact ⟨⟨rows, h, hs.of_eq hwritable hcontents himages⟩, hshape⟩

theorem Made.contents (ht : t.Made s) : s.contents.Made := ⟨t, s, ht, rfl⟩

end Tileset

theorem Container.Made.exists_holding {c : Container} (hc : c.Made) :
    ∃ layout rows h, c = Layout.containerWith layout rows h ∧ h.Valid layout := by
  obtain ⟨t, s, ht, rfl⟩ := hc
  obtain ⟨⟨rows, h, hs⟩, -⟩ := ht.holds
  exact ⟨_, rows, h, hs.contents, hs.valid⟩

theorem Container.Made.ne_empty {c : Container} (hc : c.Made) : c ≠ .empty := by
  obtain ⟨layout, rows, h, rfl, -⟩ := hc.exists_holding
  cases layout <;> exact fun heq => nomatch congrArg Container.tables heq

namespace Tileset

variable {t : Tileset} {s : Session} {α : Type}

/-! ### Work made up of store operations -/

namespace Made

theorem put_leaves (key : TileKey) (data : Option Bytes) (ht : t.Made s) :
    Leaves (t.put key data) s t.Made := leaves_iff.2 (.put key data ht)

theorem delete_leaves (key : TileKey) (ht : t.Made s) : Leaves (t.delete key) s t.Made :=
  leaves_iff.2 (.delete key ht)

theorem finalize_leaves (ht : t.Made s) : Leaves t.finalize s t.Made := leaves_iff.2 (.finalize ht)

theorem putMetadata_leaves (name value : Cell) (ht : t.Made s) :
    Leaves (Tileset.putMetadata name value) s t.Made := leaves_iff.2 (.putMetadata name value ht)

theorem note_leaves (change : Account → Account) (ht : t.Made s) :
    Leaves (note change) s t.Made := .aside ht rfl rfl rfl

theorem notified (notices : List Notice) (ht : t.Made s) : t.Made { s with notices } :=
  .aside ht rfl rfl rfl

theorem putAll_leaves (tiles : List Tile) (ht : t.Made s) : Leaves (t.putAll tiles) s t.Made := by
  induction tiles generalizing s with
  | nil => exact .pure ht
  | cons tile rest ih => exact (ht.put_leaves tile.key tile.data).bind fun _ _ ht' => ih ht'

theorem putAllMetadata_leaves (entries : List (Cell × Cell)) (ht : t.Made s) :
    Leaves (putAllMetadata entries) s t.Made := by
  induction entries generalizing s with
  | nil => exact .pure ht
  | cons entry rest ih =>
      exact (ht.putMetadata_leaves entry.1 entry.2).bind fun _ _ ht' => ih ht'

theorem merge_leaves (policy : MergePolicy) (changes : List MetadataChange) (ht : t.Made s) :
    Leaves (merge policy changes) s t.Made :=
  Tileset.merge_leaves (fun _ notices ht => ht.notified notices)
    (fun change _ _ _ ht => ht.putMetadata_leaves change.name change.value) policy ht

/-- The aggregate hash of a tileset that has been made is that of the tiles that it holds. -/
theorem aggregate_ends (ht : t.Made s) :
    Ends (query t.aggregate) s (fun hash s' => s' = s ∧ checkBatch t.batch = .ok () ∧
      ∃ rows h, t.HoldsBeside rows h s ∧ hash = aggregateHash h.sorted) fun _ => True := by
  refine (query_ends t.aggregate s).mono ?_ fun _ _ => trivial
  rintro hash s ⟨hhash, rfl⟩
  obtain ⟨⟨rows, h, hs⟩, -⟩ := ht.holds
  have hbatch := checkBatch_of_aggregate hhash
  refine ⟨rfl, hbatch, rows, h, hs, ?_⟩
  rw [hs.contents] at hhash
  exact Except.ok.inj (hhash.symm.trans (aggregate_containerWith s.file hs.valid hbatch))

/-! ### Putting values -/

/-- Once the hash of the tiles has been put among the metadata, the stored hash is fresh. -/
theorem putAggHash_leaves {rows : List Row} {h : Holding} (ht : t.Made s)
    (hs : t.HoldsBeside rows h s) :
    Leaves (Tileset.putMetadata (.text aggHashName) (.text (aggregateHash h.sorted))) s
      fun s' => t.Made s' ∧ s'.contents.Fresh := by
  have hfresh (s' : Session) (hs' : t.HoldsBeside (Layout.putRow s.file rows (.text aggHashName)
      (.text (aggregateHash h.sorted))).2 h s') : s'.contents.Fresh := by
    rw [hs'.contents, fresh_containerWith_iff hs'.valid]
    exact Layout.valueIn_putRow_text s.file rows aggHashName _
  exact (Ends.and (ht.putMetadata_leaves _ _) (Tileset.putMetadata_leaves hs _ _)).mono
    (fun _ _ hs' => ⟨hs'.1, hfresh _ hs'.2⟩) fun _ hs' => ⟨hs'.1, hfresh _ hs'.2⟩

/-- A value that is put under another name does not make the stored hash wrong. -/
theorem putOther_leaves {name : Cell} (ht : t.Made s)
    (hname : Affinity.text.keep name ≠ .text aggHashName) (value : Cell) :
    Leaves (Tileset.putMetadata name value) s fun s' => t.Made s' ∧
      (s.contents.Fresh → s'.contents.Fresh) ∧ (s.contents.Sound → s'.contents.Sound) := by
  obtain ⟨⟨rows, h, hs⟩, -⟩ := ht.holds
  have hkept (s' : Session) (hs' : t.HoldsBeside (Layout.putRow s.file rows name value).2 h s') :
      (s.contents.Fresh → s'.contents.Fresh) ∧ (s.contents.Sound → s'.contents.Sound) := by
    rw [hs'.contents, hs.contents, fresh_containerWith_iff hs.valid,
      fresh_containerWith_iff hs.valid, sound_containerWith_iff hs.valid,
      sound_containerWith_iff hs.valid, Layout.valueIn_putRow_ne hname]
    exact ⟨id, id⟩
  exact (Ends.and (ht.putMetadata_leaves name value)
    (Tileset.putMetadata_leaves hs name value)).mono
    (fun _ _ hs' => ⟨hs'.1, hkept _ hs'.2⟩) fun _ hs' => ⟨hs'.1, hkept _ hs'.2⟩

end Made

/-- A name that is not reserved is not stored as that of the aggregate hash. -/
theorem keep_ne_aggHashName {name : Cell} (hname : isReserved name = false) :
    Affinity.text.keep name ≠ .text aggHashName := by
  intro heq
  obtain rfl := eq_of_keep_eq_text heq (by decide)
  cases hname

end Tileset

theorem Container.Made.sound {c : Container} (hmade : c.Made) (hfresh : c.Fresh) : c.Sound := by
  obtain ⟨layout, rows, h, rfl, hvalid⟩ := hmade.exists_holding
  exact Tileset.sound_of_fresh hvalid hfresh

/-- Whether a container may be written to: there is nothing in it yet, or a tileset of the library
whose stored hashes are right. -/
def Container.Ready (c : Container) : Prop := c = .empty ∨ c.Made ∧ c.Sound

namespace Tileset

variable {s : Session}

theorem sound_created (layout : Layout) : (layout.container .empty).Sound := by
  rw [← Layout.containerWith_metadata, sound_containerWith_iff (Holding.valid_empty layout)]
  nofun

/-- A layout is created in an empty container only. -/
theorem createIn_ends (hwritable : s.writable = true) (layout : Layout) (batch : Int) :
    Ends (createIn layout batch) s
      (fun t s' => t.Made s' ∧ s'.contents.Sound ∧ t.batch = batch) fun _ => True := by
  cases hempty : s.contents.isEmpty with
  | true =>
      have hcontents : s.contents = .empty := Container.eq_empty_of_isEmpty hempty
      have hcreate := createIn_run layout batch hcontents hwritable
      exact (Yields.intro hcreate
        ⟨.created hcontents hwritable hcreate, sound_created layout, rfl⟩).ends
  | false =>
      have hfail : createIn layout batch s =
          .error (.io (.occupiedForLayout s.file (Keyword.word layout))) s := by
        simp only [createIn, Layout.create, bind_apply, get_apply, hempty, Bool.false_eq_true,
          if_false, throw_apply]
      exact .of_error hfail trivial

/-- Opening finds a tileset only where one has been made. -/
theorem openIn_ends (hready : s.contents.Ready) (hwritable : s.writable = true) (batch : Int) :
    Ends (openIn batch) s
      (fun t s' => t.Made s' ∧ s'.contents.Sound ∧ t.batch = batch) fun _ => True := by
  rcases hready with hempty | ⟨⟨t₀, s₀, ht₀, hcontents⟩, hsound⟩
  · have hdetect : query detect s = .error (.schema (.metadataMissing s.file)) s :=
      query_error (by rw [hempty]; rfl)
    have hfail : openIn batch s = .error (.schema (.metadataMissing s.file)) s := by
      simp only [openIn, bind_apply, hdetect]
    exact .of_error hfail trivial
  · obtain ⟨⟨rows, h, hs⟩, -⟩ := ht₀.holds
    obtain ⟨t₁, s₁, hopen, rfl, hs₁⟩ :=
      openIn_beside batch hs.valid (hcontents ▸ hs.contents) hwritable
    have hsame : s₁.contents = s.contents :=
      hs₁.contents.trans (hs.contents.symm.trans hcontents)
    exact (Yields.intro hopen
      ⟨ht₀.opened hcontents.symm hwritable hopen, hsame ▸ hsound, rfl⟩).ends

end Tileset

end TileAtlas
