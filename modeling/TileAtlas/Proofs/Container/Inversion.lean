import TileAtlas.Proofs.Container.Session

/-!
# Work that has ended with a value

What must have happened for a sequence of steps to end with a value: every step has ended with one,
so that no check on the way has failed.
-/

namespace TileAtlas

section Work

variable {σ α β : Type} {x : EStateM Failure σ α} {s s' : σ}

theorem bind_eq_ok {f : α → EStateM Failure σ β} {b : β} :
    (x >>= f) s = .ok b s' ↔ ∃ a after, x s = .ok a after ∧ f a after = .ok b s' := by
  rw [bind_apply]
  cases x s with
  | ok a after => exact ⟨fun h => ⟨a, after, rfl, h⟩, fun ⟨_, _, hx, h⟩ => by cases hx; exact h⟩
  | error failure after => exact ⟨nofun, fun ⟨_, _, hx, _⟩ => nomatch hx⟩

theorem get_bind_eq_ok {f : σ → EStateM Failure σ β} {b : β} :
    (get >>= f) s = .ok b s' ↔ f s s = .ok b s' := by
  rw [bind_apply, get_apply]

theorem modify_bind_eq_ok {change : σ → σ} {f : PUnit → EStateM Failure σ β} {b : β} :
    (modify change >>= f) s = .ok b s' ↔ f ⟨⟩ (change s) = .ok b s' := by
  rw [bind_apply, modify_apply]

theorem guard_eq_ok {c : Prop} [Decidable c] {failure : Failure}
    {rest : PUnit → EStateM Failure σ β} {b : β} :
    (if c then throw failure >>= rest else rest ⟨⟩) s = .ok b s' ↔
      ¬ c ∧ rest ⟨⟩ s = .ok b s' := by
  split
  next hc => exact ⟨nofun, fun h => absurd hc h.1⟩
  next hc => exact ⟨fun h => ⟨hc, h⟩, And.right⟩

end Work

namespace Action

variable {α : Type} {a : α} {s s' : Session}

variable {β : Type} {b : β} {f : α → Action β}

theorem ofExcept_bind_eq_ok {e : Except Failure α} :
    (ofExcept e >>= f) s = .ok b s' ↔ ∃ a, e = .ok a ∧ f a s = .ok b s' := by
  cases e with
  | ok a => exact ⟨fun h => ⟨a, rfl, h⟩, fun ⟨_, he, h⟩ => by cases he; exact h⟩
  | error failure => exact ⟨nofun, fun ⟨_, he, _⟩ => nomatch he⟩

/-- A transaction that has ended with a value keeps what its body has done. -/
theorem transaction_eq_ok {body : Action α} (h : transaction body s = .ok a s') :
    ∃ after, body { s with inTransaction := true } = .ok a after ∧
      s' = { after with inTransaction := false } := by
  unfold transaction at h
  split at h
  · cases h
  · split at h
    next b after hrun =>
      cases h
      exact ⟨after, hrun, rfl⟩
    · cases h

end Action

theorem Container.eq_empty_of_isEmpty {c : Container} (h : c.isEmpty = true) : c = .empty := by
  obtain ⟨tables, views⟩ := c
  simp only [isEmpty, Bool.and_eq_true, List.isEmpty_iff] at h
  obtain ⟨rfl, rfl⟩ := h
  rfl

end TileAtlas
