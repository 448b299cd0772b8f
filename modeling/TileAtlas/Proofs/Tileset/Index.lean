import TileAtlas.Proofs.Order.Sort
import TileAtlas.Proofs.Tileset.Statements
import TileAtlas.Tileset.Images

/-!
# The index of images

The index that is loaded from a normalized container knows the hash of an image if and only if the
image is stored, and it keeps knowing this when an image is added to both.
-/

namespace TileAtlas

/-- A tile hash is written in capital letters already. -/
@[simp] theorem upper_payloadHash (data : Bytes) :
    Text.upper (payloadHash data) = payloadHash data :=
  Text.upper_hexUpper _

namespace ImageIndex

/-- Whether an index leads from the hash of a payload to itself if some image has the hash, and
nowhere otherwise. -/
def Knows (index : ImageIndex) (images : List Bytes) : Prop :=
  ∀ data, index.find? (payloadHash data) =
    if payloadHash data ∈ images.map payloadHash then some (.text (payloadHash data)) else none

theorem lookup_cons (digest key : String) (id : Cell) (rest : ImageIndex) :
    List.lookup key ((digest, id) :: rest) =
      if key = digest then some id else rest.lookup key := by
  by_cases hkey : key = digest
  · simp [hkey]
  · simp [List.lookup_cons, hkey, beq_false_of_ne hkey]

theorem lookup_set (index : ImageIndex) (digest key : String) (id : Cell) :
    (index.set digest id).lookup key = if key = digest then some id else index.lookup key := by
  induction index with
  | nil => exact lookup_cons digest key id []
  | cons entry rest ih =>
      obtain ⟨digest', id'⟩ := entry
      by_cases hdigest : digest' = digest
      · subst hdigest
        rw [set, if_pos rfl, lookup_cons, lookup_cons]
        split <;> rfl
      · rw [set, if_neg hdigest, lookup_cons, lookup_cons, ih]
        by_cases hkey : key = digest
        · have hother : ¬ key = digest' := fun h => hdigest (h.symm.trans hkey)
          simp only [if_pos hkey, if_neg hother]
        · simp only [if_neg hkey]

theorem find?_set (index : ImageIndex) (digest : String) (id : Cell) (data : Bytes) :
    (index.set digest id).find? (payloadHash data) =
      if payloadHash data = digest then some id else index.find? (payloadHash data) := by
  simp only [find?, lookup_set, upper_payloadHash]

theorem Knows.set {index : ImageIndex} {images : List Bytes} (h : index.Knows images)
    (data : Bytes) :
    (index.set (payloadHash data) (.text (payloadHash data))).Knows (images ++ [data]) := by
  intro other
  rw [find?_set, h other]
  by_cases hother : payloadHash other = payloadHash data
  · simp [hother]
  · simp [hother]

theorem Knows.of_mem_iff {index : ImageIndex} {images images' : List Bytes}
    (h : index.Knows images) (himages : ∀ image, image ∈ images' ↔ image ∈ images) :
    index.Knows images' := by
  intro data
  rw [h data]
  simp only [List.mem_map, himages]

theorem knows_ofIds (images : List Bytes) :
    (ofIds (images.map fun image => .text (payloadHash image))).Knows images := by
  have hfold (index : ImageIndex) (seen : List Bytes) (h : index.Knows seen) :
      ((images.map fun image => Cell.text (payloadHash image)).foldl
        (fun index id => set (Text.upper id.display) id index) index).Knows (seen ++ images) := by
    induction images generalizing index seen with
    | nil => simpa using h
    | cons image rest ih =>
        have hnext : (index.set (payloadHash image) (.text (payloadHash image))).Knows
            (seen ++ [image]) := h.set image
        simpa [Cell.display] using ih _ _ hnext
  simpa [ofIds] using hfold [] [] fun data => rfl

end ImageIndex

open Layout

theorem Tileset.imageIds_container (file : String) (h : Holding) :
    ∃ images : List Bytes, images.Perm h.images ∧
      imageIds file (normalized.container h) =
        .ok (images.map fun image => .text (payloadHash image)) := by
  let le (a b : Bytes) : Bool :=
    (imagesTableOf h.images).columnsLe (imagesTableOf h.images).key (imageRow a) (imageRow b)
  have hsort : (imagesTableOf h.images).inKeyOrder = (sortBy le h.images).map imageRow :=
    sortBy_map _ _ _
  have hkeyed : imagesTable.visitsByKey ⟨[], ["tile_id"], none, ["tile_id"]⟩ = true := by
    decide +kernel
  have hvisit : (normalized.container h).visit "images" ["tile_id"]
      ⟨[], ["tile_id"], none, ["tile_id"]⟩ =
        .ok ((sortBy le h.images).map fun image => [.text (payloadHash image)]) := by
    simp only [Container.visit, Container.list, table?_images,
      Table.visited_of_key (t := imagesTableOf h.images) hkeyed, hsort, Table.positions]
    exact congrArg Except.ok List.map_map
  refine ⟨sortBy le h.images, sortBy_perm le h.images, ?_⟩
  simp only [imageIds, hvisit, onFile, bind, Except.bind, pure, Except.pure, List.map_map]
  refine congrArg Except.ok (List.filter_eq_self.2 fun cell hcell => ?_)
  obtain ⟨image, -, rfl⟩ := List.mem_map.1 hcell
  rfl

end TileAtlas
