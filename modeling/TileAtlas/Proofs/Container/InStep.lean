import TileAtlas.Proofs.Container.Session

/-!
# Two runs in step

Two pieces of work on two sessions, or on the files of two workspaces, are in step if both end with
a value or both with a failure, and the values or the failures correspond.  Sequences of steps are
in step if every step is.
-/

namespace TileAtlas

/-- Failures that are the same, but for the file that is named when a statement has failed. -/
inductive Failure.Alike (file file' : String) : Failure → Failure → Prop
  | same (failure : Failure) : Alike file file' failure failure
  | statement (why : StatementError) :
      Alike file file' (.io (.statement file why)) (.io (.statement file' why))

section Work

variable {σ τ α β γ δ : Type} {file file' : String} {x : EStateM Failure σ α}
  {y : EStateM Failure τ β} {f : α → EStateM Failure σ γ} {g : β → EStateM Failure τ δ}
  {s s₁ : σ} {t t₁ : τ} {Q : α → β → σ → τ → Prop} {R : γ → δ → σ → τ → Prop} {E F : σ → τ → Prop}

/-- Two results: values that are related by `Q`, or alike failures; the states that failures leave
are related by `E`. -/
inductive Level (file file' : String) (Q : α → β → σ → τ → Prop) (E : σ → τ → Prop) :
    EStateM.Result Failure σ α → EStateM.Result Failure τ β → Prop
  | ok {a : α} {b : β} {s : σ} {t : τ} : Q a b s t → Level file file' Q E (.ok a s) (.ok b t)
  | error {why why' : Failure} {s : σ} {t : τ} : why.Alike file file' why' → E s t →
      Level file file' Q E (.error why s) (.error why' t)

/-- Two pieces of work that end with related values and states, or with alike failures. -/
def InStep (file file' : String) (x : EStateM Failure σ α) (y : EStateM Failure τ β) (s : σ) (t : τ)
    (Q : α → β → σ → τ → Prop) (E : σ → τ → Prop) : Prop :=
  Level file file' Q E (x s) (y t)

namespace InStep

theorem mono {Q' : α → β → σ → τ → Prop} (h : InStep file file' x y s t Q E)
    (hQ : ∀ a b s₁ t₁, Q a b s₁ t₁ → Q' a b s₁ t₁) (hE : ∀ s₁ t₁, E s₁ t₁ → F s₁ t₁) :
    InStep file file' x y s t Q' F := by
  unfold InStep at h ⊢
  generalize x s = r, y t = r' at h ⊢
  cases h with
  | ok h => exact .ok (hQ _ _ _ _ h)
  | error halike h => exact .error halike (hE _ _ h)

theorem bind (h : InStep file file' x y s t Q E)
    (hfg : ∀ a b s₁ t₁, Q a b s₁ t₁ → InStep file file' (f a) (g b) s₁ t₁ R E) :
    InStep file file' (x >>= f) (y >>= g) s t R E := by
  unfold InStep at h ⊢
  rw [bind_apply, bind_apply]
  generalize x s = r, y t = r' at h ⊢
  cases h with
  | ok h => exact hfg _ _ _ _ h
  | error halike h => exact .error halike h

theorem pure {a : α} {b : β} (h : Q a b s t) :
    InStep file file' (pure a : EStateM Failure σ α) (pure b : EStateM Failure τ β) s t Q E :=
  .ok h

theorem throw (failure : Failure) (h : E s t) :
    InStep file file' (throw failure : EStateM Failure σ α) (throw failure : EStateM Failure τ β)
      s t Q E :=
  .error (.same failure) h

theorem modify {p : σ → σ} {q : τ → τ} {Q : PUnit → PUnit → σ → τ → Prop}
    (h : Q ⟨⟩ ⟨⟩ (p s) (q t)) :
    InStep file file' (modify p : EStateM Failure σ PUnit) (modify q : EStateM Failure τ PUnit)
      s t Q E :=
  .ok h

theorem of_error {failure : Failure} (hx : x s = .error failure s₁) (hy : y t = .error failure t₁)
    (h : E s₁ t₁) : InStep file file' x y s t Q E := by
  unfold InStep
  rw [hx, hy]
  exact .error (.same failure) h

theorem of_yields {P : α → σ → Prop} {P' : β → τ → Prop} (hx : Yields x s P) (hy : Yields y t P')
    (h : ∀ a b s₁ t₁, P a s₁ → P' b t₁ → Q a b s₁ t₁) : InStep file file' x y s t Q E := by
  obtain ⟨a, s₁, hx, hP⟩ := hx
  obtain ⟨b, t₁, hy, hP'⟩ := hy
  unfold InStep
  rw [hx, hy]
  exact .ok (h a b s₁ t₁ hP hP')

/-- Work on one side may come first if it yields a value. -/
theorem yields_bind {P : α → σ → Prop} {z : EStateM Failure τ δ} (hx : Yields x s P)
    (h : ∀ a s₁, P a s₁ → InStep file file' (f a) z s₁ t R E) :
    InStep file file' (x >>= f) z s t R E := by
  obtain ⟨a, s₁, hx, hP⟩ := hx
  unfold InStep
  rw [bind_apply, hx]
  exact h a s₁ hP

theorem bind_yields {P : β → τ → Prop} {z : EStateM Failure σ γ} (hy : Yields y t P)
    (h : ∀ b t₁, P b t₁ → InStep file file' z (g b) s t₁ R E) :
    InStep file file' z (y >>= g) s t R E := by
  obtain ⟨b, t₁, hy, hP⟩ := hy
  unfold InStep
  rw [bind_apply, hy]
  exact h b t₁ hP

end InStep

end Work

namespace Action

variable {α : Type} {file file' : String} {s s' : Session} {E : Session → Session → Prop}

theorem ofExcept_inStep (e : Except Failure α) (h : E s s') :
    InStep file file' (ofExcept e) (ofExcept e) s s'
      (fun a b s₁ s₁' => e = .ok a ∧ a = b ∧ s₁ = s ∧ s₁' = s') E := by
  cases e with
  | ok a => exact .pure ⟨rfl, rfl, rfl, rfl⟩
  | error failure => exact .throw failure h

end Action

end TileAtlas
