import TileAtlas.Container.Scan
import Mathlib.Data.List.Forall2
import Mathlib.Tactic.Common

/-!
# How far a sequence is read

Reading a sequence stops at its first element that cannot be read.  All elements before it have been
read, and the items are what they have given, in their order.
-/

namespace TileAtlas

section Related

variable {α β : Type} {R : α → β → Prop} {l : List α} {l' : List β}

theorem exists_of_forall₂ (h : List.Forall₂ R l l') : ∀ b ∈ l', ∃ a ∈ l, R a b := by
  induction h with
  | nil => exact nofun
  | cons hab _ ih =>
      refine List.forall_mem_cons.2 ⟨⟨_, List.mem_cons_self .., hab⟩, fun b hb => ?_⟩
      obtain ⟨a, ha, hab⟩ := ih b hb
      exact ⟨a, List.mem_cons_of_mem _ ha, hab⟩

/-- What any two elements of a list have to each other, those that they are related to have. -/
theorem pairwise_of_forall₂ {P : α → α → Prop} {Q : β → β → Prop} (h : List.Forall₂ R l l')
    (hrelated : ∀ a b c d, R a b → R c d → P a c → Q b d) (hl : l.Pairwise P) : l'.Pairwise Q := by
  induction h with
  | nil => exact .nil
  | cons hab hrest ih =>
      obtain ⟨hfirst, hl⟩ := List.pairwise_cons.1 hl
      refine List.pairwise_cons.2 ⟨fun d hd => ?_, ih hl⟩
      obtain ⟨c, hc, hcd⟩ := exists_of_forall₂ hrest d hd
      exact hrelated _ _ _ _ hab hcd (hfirst c hc)

theorem map_eq_of_forall₂ {γ : Type} (h : List.Forall₂ R l l') {f : α → γ} {g : β → γ}
    (hfg : ∀ a b, R a b → f a = g b) : l.map f = l'.map g := by
  rw [← List.forall₂_eq_eq_eq, List.forall₂_map_left_iff, List.forall₂_map_right_iff]
  exact h.imp hfg

end Related

namespace Scan

variable {α β : Type} {read : α → Except Failure (Option β)} {l before after : List α} {s : Scan β}

theorem reading_of_forall {f : α → β} (h : ∀ a ∈ l, read a = .ok (some (f a))) :
    reading read l = .ofList (l.map f) := by
  induction l with
  | nil => rfl
  | cons a rest ih =>
      obtain ⟨ha, hrest⟩ := List.forall_mem_cons.1 h
      rw [reading, ha, ih hrest]
      rfl

/-- Whether an element that is read gives an item. -/
def gives (read : α → Except Failure (Option β)) (a : α) : Bool :=
  match read a with
  | .ok (some _) => true
  | _ => false

theorem gives_iff {a : α} : gives read a = true ↔ ∃ b, read a = .ok (some b) := by
  unfold gives
  split
  next b h => simp [h]
  next h => simpa using h

/-- How far a scan has read a sequence: over some elements, but not over the next one. -/
structure Reaches (read : α → Except Failure (Option β)) (before after : List α) (s : Scan β) :
    Prop where
  reads : ∀ a ∈ before, ∃ found, read a = .ok found
  items : List.Forall₂ (fun a b => read a = .ok (some b)) (before.filter (gives read)) s.items
  ending : after = [] ∧ s.failure = none ∨
    ∃ bad rest failure, after = bad :: rest ∧ read bad = .error failure ∧ s.failure = some failure

theorem Reaches.cons {a : α} (h : Reaches read before after s) {found : Option β}
    (ha : read a = .ok found) : Reaches read (a :: before) after
      (match found with
        | some b => Scan.cons b s
        | none => s) := by
  have hreads : ∀ b ∈ a :: before, ∃ found, read b = .ok found :=
    List.forall_mem_cons.2 ⟨⟨found, ha⟩, h.reads⟩
  cases found with
  | none =>
      have hgives : gives read a = false := by simp [gives, ha]
      refine ⟨hreads, ?_, h.ending⟩
      rw [List.filter_cons_of_neg (by simp [hgives])]
      exact h.items
  | some b =>
      refine ⟨hreads, ?_, h.ending⟩
      rw [List.filter_cons_of_pos (gives_iff.2 ⟨b, ha⟩)]
      exact .cons ha h.items

theorem exists_reaches (read : α → Except Failure (Option β)) (l : List α) :
    ∃ before after, l = before ++ after ∧ Reaches read before after (reading read l) := by
  induction l with
  | nil => exact ⟨[], [], rfl, nofun, .nil, .inl ⟨rfl, rfl⟩⟩
  | cons a rest ih =>
      obtain ⟨before, after, hsplit, hreaches⟩ := ih
      cases ha : read a with
      | error failure =>
          refine ⟨[], a :: rest, rfl, nofun, ?_, .inr ⟨a, rest, failure, rfl, ha, ?_⟩⟩
          · simp only [reading, ha]
            exact .nil
          · simp only [reading, ha]
            rfl
      | ok found =>
          refine ⟨a :: before, after, by rw [hsplit, List.cons_append], ?_⟩
          have hcons := hreaches.cons ha
          cases found <;> simpa only [reading, ha] using hcons

namespace Reaches

/-- What any two of the elements that were read have to each other, their items have. -/
theorem pairwise_items {P : α → α → Prop} {Q : β → β → Prop} (h : Reaches read before after s)
    (hrelated : ∀ a b c d, read a = .ok (some b) → read c = .ok (some d) → P a c → Q b d)
    (hbefore : before.Pairwise P) : s.items.Pairwise Q :=
  pairwise_of_forall₂ h.items hrelated (hbefore.sublist List.filter_sublist)

/-- Where reading never skips an element there is an item for each. -/
theorem items_of_given (h : Reaches read before after s)
    (hgives : ∀ a ∈ before, read a ≠ .ok none) :
    List.Forall₂ (fun a b => read a = .ok (some b)) before s.items := by
  have hfilter : before.filter (gives read) = before := by
    refine List.filter_eq_self.2 fun a ha => gives_iff.2 ?_
    obtain ⟨found, hfound⟩ := h.reads a ha
    cases found with
    | none => exact absurd hfound (hgives a ha)
    | some b => exact ⟨b, hfound⟩
  simpa only [hfilter] using h.items

end Reaches

end Scan

end TileAtlas
