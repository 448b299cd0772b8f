import TileAtlas.Proofs.Tileset.Holding

/-!
# Valid holdings

What every holding of the library satisfies: keys, names and the hashes of images do not repeat,
keys fit the container, and a normalized container has an image for every payload.
-/

namespace TileAtlas

namespace Holding

structure Valid (h : Holding) (layout : Layout) : Prop where
  keys : h.tiles.Pairwise fun a b => a.key ≠ b.key
  fits : ∀ tile ∈ h.tiles, tile.key.cells.all Cell.fits = true
  names : h.metadata.Pairwise fun a b => a.1 ≠ b.1
  hashes : h.images.Pairwise fun a b => payloadHash a ≠ payloadHash b
  stored : layout = .normalized → ∀ tile ∈ h.tiles, ∀ data ∈ tile.data, data ∈ h.images
  unused : layout ≠ .normalized → h.images = []

variable {h : Holding} {layout : Layout}

theorem valid_empty (layout : Layout) : empty.Valid layout :=
  ⟨.nil, by simp [empty], .nil, .nil, by simp [empty], fun _ => rfl⟩

@[simp] theorem mem_delete {key : TileKey} {tile : Tile} :
    tile ∈ (h.delete key).tiles ↔ tile ∈ h.tiles ∧ tile.key ≠ key := by
  simp [delete]

theorem Valid.delete (hvalid : h.Valid layout) (key : TileKey) : (h.delete key).Valid layout where
  keys := hvalid.keys.filter _
  fits tile htile := hvalid.fits tile (mem_delete.1 htile).1
  names := hvalid.names
  hashes := hvalid.hashes
  stored hlayout tile htile := hvalid.stored hlayout tile (mem_delete.1 htile).1
  unused := hvalid.unused

@[simp] theorem tiles_store (data : Bytes) : (h.store layout data).tiles = h.tiles := by
  unfold store
  split <;> rfl

@[simp] theorem metadata_store (data : Bytes) : (h.store layout data).metadata = h.metadata := by
  unfold store
  split <;> rfl

theorem subset_images_store (data : Bytes) : h.images ⊆ (h.store layout data).images := by
  unfold store
  split
  · exact List.subset_append_left _ _
  · exact List.Subset.refl _

theorem images_store_subset (data : Bytes) : (h.store layout data).images ⊆ data :: h.images := by
  unfold store
  split
  · intro image himage
    simpa [or_comm] using himage
  · exact List.subset_cons_self _ _

theorem Valid.store (hvalid : h.Valid layout) (data : Bytes) :
    (h.store layout data).Valid layout where
  keys := by simpa using hvalid.keys
  fits := by simpa using hvalid.fits
  names := by simpa using hvalid.names
  hashes := by
    unfold Holding.store
    split
    next hnew =>
      refine List.pairwise_append.2 ⟨hvalid.hashes, List.pairwise_singleton _ _, ?_⟩
      intro image himage new hnewImage heq
      obtain rfl := List.mem_singleton.1 hnewImage
      exact hnew.2 (List.mem_map.2 ⟨image, himage, heq⟩)
    · exact hvalid.hashes
  stored hlayout tile htile image himage :=
    subset_images_store data (hvalid.stored hlayout tile (by simpa using htile) image himage)
  unused hlayout := by
    rw [Holding.store, if_neg fun hnew => hlayout hnew.1]
    exact hvalid.unused hlayout

/-- The hash of what is kept of a payload is the hash of the payload. -/
@[simp] theorem payloadHash_kept (data : Bytes) :
    payloadHash (h.kept layout data) = payloadHash data := by
  unfold kept
  split
  · cases himage : h.images.find? fun image => payloadHash image = payloadHash data with
    | none => rfl
    | some image => simpa using List.find?_some himage
  · rfl

theorem kept_mem_store (hlayout : layout = .normalized) (data : Bytes) :
    h.kept layout data ∈ (h.store layout data).images := by
  rw [kept, if_pos hlayout]
  cases himage : h.images.find? fun image => payloadHash image = payloadHash data with
  | none =>
      have hnew : payloadHash data ∉ h.images.map payloadHash := by
        simpa [List.find?_eq_none] using himage
      rw [store, if_pos ⟨hlayout, hnew⟩]
      exact List.mem_append_right _ (List.mem_singleton_self _)
  | some image => exact subset_images_store data (List.mem_of_find?_eq_some himage)

/-- A payload is kept as it is if no other payload under consideration has its hash. -/
theorem kept_eq {P : Set Bytes} (hP : Set.InjOn payloadHash P)
    (himages : ∀ image ∈ h.images, image ∈ P) {data : Bytes} (hdata : data ∈ P) :
    h.kept layout data = data := by
  refine hP ?_ hdata (payloadHash_kept data)
  unfold kept
  split
  · cases himage : h.images.find? fun image => payloadHash image = payloadHash data with
    | none => exact hdata
    | some image => exact himages image (List.mem_of_find?_eq_some himage)
  · exact hdata

theorem Valid.put (hvalid : h.Valid layout) {key : TileKey} (hkey : key.cells.all Cell.fits = true)
    (data : Option Bytes) : (h.put layout key data).Valid layout := by
  have hrest : (data.elim (h.delete key) ((h.delete key).store layout)).Valid layout := by
    cases data with
    | none => exact hvalid.delete key
    | some bytes => exact (hvalid.delete key).store bytes
  have htiles : (data.elim (h.delete key) ((h.delete key).store layout)).tiles =
      (h.delete key).tiles := by
    cases data with
    | none => rfl
    | some bytes => exact tiles_store bytes
  refine ⟨?_, ?_, hrest.names, hrest.hashes, ?_, hrest.unused⟩
  · refine List.pairwise_append.2 ⟨hrest.keys, List.pairwise_singleton _ _, ?_⟩
    intro tile htile new hnew
    obtain rfl := List.mem_singleton.1 hnew
    exact (mem_delete.1 (htiles ▸ htile)).2
  · intro tile htile
    rcases List.mem_append.1 htile with htile | htile
    · exact hrest.fits tile htile
    · obtain rfl := List.mem_singleton.1 htile
      exact hkey
  · intro hlayout tile htile image himage
    rcases List.mem_append.1 htile with htile | htile
    · exact hrest.stored hlayout tile htile image himage
    · obtain rfl := List.mem_singleton.1 htile
      obtain ⟨bytes, rfl, rfl⟩ := Option.map_eq_some_iff.1 himage
      exact kept_mem_store hlayout bytes

theorem uses_of_mem {tile : Tile} (htile : tile ∈ h.tiles) {data : Bytes}
    (hdata : data ∈ tile.data) : h.uses data = true := by
  refine List.any_eq_true.2 ⟨tile, htile, ?_⟩
  rw [Option.mem_def.1 hdata]
  exact decide_eq_true rfl

theorem Valid.finalize (hvalid : h.Valid layout) : h.finalize.Valid layout where
  keys := hvalid.keys
  fits := hvalid.fits
  names := hvalid.names
  hashes := hvalid.hashes.filter _
  stored hlayout tile htile data hdata :=
    List.mem_filter.2 ⟨hvalid.stored hlayout tile htile data hdata, uses_of_mem htile hdata⟩
  unused hlayout := by simp [Holding.finalize, hvalid.unused hlayout]

theorem putMetadata_none (name : String) : h.putMetadata name none = h.erase name := by
  simp [putMetadata]

theorem Valid.putMetadata (hvalid : h.Valid layout) (name : String) (value : Option String) :
    (h.putMetadata name value).Valid layout where
  keys := hvalid.keys
  fits := hvalid.fits
  names := by
    cases value with
    | none =>
        rw [putMetadata_none]
        exact hvalid.names.filter _
    | some value =>
        refine List.pairwise_append.2 ⟨hvalid.names.filter _, List.pairwise_singleton _ _, ?_⟩
        intro entry hentry new hnew
        obtain rfl := List.mem_singleton.1 hnew
        simpa using (List.mem_filter.1 hentry).2
  hashes := hvalid.hashes
  stored := hvalid.stored
  unused := hvalid.unused

end Holding

theorem Layout.tileCells_kept (layout : Layout) (h : Holding) (data : Option Bytes) :
    layout.tileCells (data.map (h.kept layout)) = layout.tileCells data := by
  cases data with
  | none => rfl
  | some bytes =>
      by_cases hlayout : layout = .normalized
      · subst hlayout
        simp only [tileCells, Option.map_some, tileHash, Holding.payloadHash_kept]
      · rw [Option.map_some, Holding.kept, if_neg hlayout]

end TileAtlas
