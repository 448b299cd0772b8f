import TileAtlas.Proofs.Container.Rollback
import TileAtlas.Tileset.Store

/-!
# What store operations do not touch

Store operations change the contents of a session and what is remembered of the images, and nothing
else: the account of an operation, for one, is as it was before.
-/

namespace TileAtlas

open TileAtlas.Action

variable {γ : Type} {part : Session → γ}

/-- Whether a part of the session is neither the contents nor what is remembered of the images. -/
def Session.Apart (part : Session → γ) : Prop :=
  ∀ (s : Session) contents images, part { s with contents, images } = part s

theorem Session.apart_account : Apart Session.account := fun _ _ _ => rfl

namespace Tileset

variable {t : Tileset}

theorem preserves_statement (hpart : Session.Apart part) (statement : Statement) :
    Preserves part (execute statement) :=
  preserves_execute (fun s contents => hpart s contents s.images) statement

theorem preserves_remember (hpart : Session.Apart part) (images : Option ImageIndex) :
    Preserves part (modify fun session : Session => { session with images } : Action PUnit) :=
  preserves_modify fun s => hpart s s.contents images

theorem preserves_imageIndex (hpart : Session.Apart part) : Preserves part t.imageIndex := by
  refine preserves_get.bind fun s => ?_
  cases s.images with
  | some index => exact preserves_pure index
  | none =>
      refine (preserves_query _).bind fun ids => (preserves_ofExcept _).bind fun _ => ?_
      exact (preserves_remember hpart _).bind fun _ => preserves_pure _

theorem preserves_imageFor (hpart : Session.Apart part) (data : Bytes) :
    Preserves part (t.imageFor data) := by
  have hlookup : Preserves part (t.lookupImage (payloadHash data)) :=
    (preserves_imageIndex hpart).bind fun _ => preserves_pure _
  refine hlookup.bind fun found => ?_
  cases found with
  | some id => exact preserves_pure id
  | none =>
      refine (preserves_statement hpart _).bind fun _ => ?_
      refine (preserves_imageIndex hpart).bind fun index => ?_
      exact (preserves_remember hpart _).bind fun _ => preserves_pure _

theorem preserves_delete (hpart : Session.Apart part) (key : TileKey) :
    Preserves part (t.delete key) :=
  (preserves_statement hpart _).bind fun _ => preserves_pure _

theorem preserves_put (hpart : Session.Apart part) (key : TileKey) (data : Option Bytes) :
    Preserves part (t.put key data) := by
  refine (preserves_delete hpart key).bind fun _ => ?_
  have hcolumns : Preserves part (t.tileColumns data) := by
    unfold tileColumns
    split
    · exact preserves_pure _
    · exact preserves_pure _
    · cases data with
      | none => exact preserves_pure _
      | some bytes => exact (preserves_imageFor hpart bytes).bind fun _ => preserves_pure _
  exact hcolumns.bind fun _ => (preserves_statement hpart _).bind fun _ => preserves_pure _

theorem preserves_finalize (hpart : Session.Apart part) : Preserves part t.finalize := by
  unfold finalize
  split
  · refine (preserves_statement hpart _).bind fun dropped => ?_
    by_cases hdropped : 0 < dropped
    · simp only [hdropped, if_true]
      exact (preserves_remember hpart _).bind fun _ => preserves_pure _
    · simp only [hdropped, if_false]
      exact preserves_pure _
  · exact preserves_pure _

theorem preserves_putMetadata (hpart : Session.Apart part) (name value : Cell) :
    Preserves part (putMetadata name value) := by
  refine (preserves_statement hpart _).bind fun _ => ?_
  split
  · exact (preserves_statement hpart _).bind fun _ => preserves_pure _
  · exact preserves_pure _

theorem preserves_putAll (hpart : Session.Apart part) (tiles : List Tile) :
    Preserves part (t.putAll tiles) := by
  induction tiles with
  | nil => exact preserves_pure _
  | cons tile rest ih => exact (preserves_put hpart tile.key tile.data).bind fun _ => ih

theorem preserves_putAllMetadata (hpart : Session.Apart part) (entries : List (Cell × Cell)) :
    Preserves part (putAllMetadata entries) := by
  induction entries with
  | nil => exact preserves_pure _
  | cons entry rest ih => exact (preserves_putMetadata hpart entry.1 entry.2).bind fun _ => ih

end Tileset

end TileAtlas
