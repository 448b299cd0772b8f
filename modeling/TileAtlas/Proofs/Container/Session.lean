import TileAtlas.Container.Session
import Mathlib.Tactic.Common

/-!
# How work ends

Work on a session or on the files of a workspace either yields a value or fails.  `Yields` and
`Fails` say which, `Decides` says when, and a sequence of steps is dealt with step by step.
-/

namespace TileAtlas

section Work

variable {σ α β : Type} {x : EStateM Failure σ α} {f : α → EStateM Failure σ β} {s : σ}

theorem bind_apply (x : EStateM Failure σ α) (f : α → EStateM Failure σ β) (s : σ) :
    (x >>= f) s = match x s with
      | .ok a s' => f a s'
      | .error failure s' => .error failure s' := by
  show EStateM.bind x f s = _
  unfold EStateM.bind
  cases x s <;> rfl

theorem pure_apply (a : α) (s : σ) : (pure a : EStateM Failure σ α) s = .ok a s := rfl

theorem get_apply (s : σ) : (get : EStateM Failure σ σ) s = .ok s s := rfl

theorem modify_apply (f : σ → σ) (s : σ) :
    (modify f : EStateM Failure σ PUnit) s = .ok ⟨⟩ (f s) := rfl

theorem throw_apply (failure : Failure) (s : σ) :
    (throw failure : EStateM Failure σ α) s = .error failure s := rfl

/-- Work that ends with a value and leaves a state of which `Q` holds. -/
def Yields (x : EStateM Failure σ α) (s : σ) (Q : α → σ → Prop) : Prop :=
  ∃ a s', x s = .ok a s' ∧ Q a s'

/-- Work that ends with a failure. -/
def Fails (x : EStateM Failure σ α) (s : σ) : Prop :=
  ∃ failure s', x s = .error failure s'

theorem Yields.intro {Q : α → σ → Prop} {a : α} {s' : σ} (h : x s = .ok a s') (hQ : Q a s') :
    Yields x s Q :=
  ⟨a, s', h, hQ⟩

theorem Yields.pure {Q : α → σ → Prop} {a : α} (h : Q a s) :
    Yields (pure a : EStateM Failure σ α) s Q :=
  ⟨a, s, rfl, h⟩

theorem Yields.mono {Q R : α → σ → Prop} (h : Yields x s Q) (hQR : ∀ a s', Q a s' → R a s') :
    Yields x s R := by
  obtain ⟨a, s', hx, hQ⟩ := h
  exact ⟨a, s', hx, hQR a s' hQ⟩

theorem Yields.bind {Q : α → σ → Prop} {R : β → σ → Prop} (h : Yields x s Q)
    (hf : ∀ a s', Q a s' → Yields (f a) s' R) : Yields (x >>= f) s R := by
  obtain ⟨a, s', hx, hQ⟩ := h
  obtain ⟨b, s'', hb, hR⟩ := hf a s' hQ
  exact ⟨b, s'', by simp only [bind_apply, hx, hb], hR⟩

theorem Yields.of_run {y : EStateM Failure σ α} {t : σ} {Q : α → σ → Prop} (hxy : x s = y t)
    (h : Yields y t Q) : Yields x s Q := by
  unfold Yields
  rwa [hxy]

theorem Fails.bind (h : Fails x s) : Fails (x >>= f) s := by
  obtain ⟨failure, s', hx⟩ := h
  exact ⟨failure, s', by simp only [bind_apply, hx]⟩

theorem Yields.fails_bind {Q : α → σ → Prop} (h : Yields x s Q)
    (hf : ∀ a s', Q a s' → Fails (f a) s') : Fails (x >>= f) s := by
  obtain ⟨a, s', hx, hQ⟩ := h
  obtain ⟨failure, s'', hb⟩ := hf a s' hQ
  exact ⟨failure, s'', by simp only [bind_apply, hx, hb]⟩

/-- Work that ends with the given failure. -/
def FailsWith (x : EStateM Failure σ α) (s : σ) (failure : Failure) : Prop :=
  ∃ s', x s = .error failure s'

section Decidable

instance {Q : α → σ → Prop} [∀ a s', Decidable (Q a s')] : Decidable (Yields x s Q) :=
  match h : x s with
  | .ok a s' => decidable_of_iff (Q a s') (by simp [Yields, h])
  | .error _ _ => isFalse (by simp [Yields, h])

instance : Decidable (Fails x s) :=
  match h : x s with
  | .ok _ _ => isFalse (by simp [Fails, h])
  | .error _ _ => isTrue (by simp [Fails, h])

instance {failure : Failure} : Decidable (FailsWith x s failure) :=
  match h : x s with
  | .ok _ _ => isFalse (by simp [FailsWith, h])
  | .error found _ => decidable_of_iff (found = failure) (by simp [FailsWith, h])

end Decidable

theorem FailsWith.bind {failure : Failure} (h : FailsWith x s failure) :
    FailsWith (x >>= f) s failure := by
  obtain ⟨s', hx⟩ := h
  exact ⟨s', by simp only [bind_apply, hx]⟩

theorem FailsWith.of_run {y : EStateM Failure σ α} {t : σ} {failure : Failure} (hxy : x s = y t)
    (h : FailsWith y t failure) : FailsWith x s failure := by
  unfold FailsWith
  rwa [hxy]

theorem Yields.failsWith_bind {Q : α → σ → Prop} {failure : Failure} (h : Yields x s Q)
    (hf : ∀ a s', Q a s' → FailsWith (f a) s' failure) : FailsWith (x >>= f) s failure := by
  obtain ⟨a, s', hx, hQ⟩ := h
  obtain ⟨s'', hb⟩ := hf a s' hQ
  exact ⟨s'', by simp only [bind_apply, hx, hb]⟩

/-- Work that yields a value if `P` holds, and fails otherwise. -/
structure Decides (x : EStateM Failure σ α) (s : σ) (P : Prop) (Q : α → σ → Prop) : Prop where
  yields : P → Yields x s Q
  fails : ¬ P → Fails x s

section Decides

variable {P P' : Prop} {Q : α → σ → Prop}

theorem Decides.mono {R : α → σ → Prop} (h : Decides x s P Q) (hP : P ↔ P')
    (hQR : P → ∀ a s', Q a s' → R a s') : Decides x s P' R where
  yields hP' := (h.yields (hP.2 hP')).mono (hQR (hP.2 hP'))
  fails hP' := h.fails fun hyes => hP' (hP.1 hyes)

theorem Decides.of_eq {y : EStateM Failure σ α} (hxy : x s = y s) (h : Decides y s P Q) :
    Decides x s P Q := by
  refine ⟨fun hP => ?_, fun hP => ?_⟩
  · unfold Yields
    rw [hxy]
    exact h.yields hP
  · unfold Fails
    rw [hxy]
    exact h.fails hP

variable {R : β → σ → Prop}

theorem Decides.bind (h : Decides x s P Q)
    (hf : P → ∀ a s', Q a s' → Decides (f a) s' P' R) : Decides (x >>= f) s (P ∧ P') R := by
  constructor
  · rintro ⟨hP, hP'⟩
    exact (h.yields hP).bind fun a s' hQ => (hf hP a s' hQ).yields hP'
  · intro hnot
    by_cases hP : P
    · exact (h.yields hP).fails_bind fun a s' hQ =>
        (hf hP a s' hQ).fails fun hP' => hnot ⟨hP, hP'⟩
    · exact (h.fails hP).bind

theorem Decides.bind_yields (h : Decides x s P Q)
    (hf : P → ∀ a s', Q a s' → Yields (f a) s' R) : Decides (x >>= f) s P R where
  yields hP := (h.yields hP).bind (hf hP)
  fails hP := (h.fails hP).bind

theorem Yields.bind_decides (h : Yields x s Q)
    (hf : ∀ a s', Q a s' → Decides (f a) s' P R) : Decides (x >>= f) s P R where
  yields hP := h.bind fun a s' hQ => (hf a s' hQ).yields hP
  fails hP := h.fails_bind fun a s' hQ => (hf a s' hQ).fails hP

end Decides

/-- Work that ends with a value and a state of which `Q` holds, or with a failure and a state of
which `E` holds. -/
def Ends (x : EStateM Failure σ α) (s : σ) (Q : α → σ → Prop) (E : σ → Prop) : Prop :=
  match x s with
  | .ok a s' => Q a s'
  | .error _ s' => E s'

theorem Ends.mono {Q R : α → σ → Prop} {E F : σ → Prop} (h : Ends x s Q E)
    (hQR : ∀ a s', Q a s' → R a s') (hEF : ∀ s', E s' → F s') : Ends x s R F := by
  unfold Ends at h ⊢
  cases hx : x s with
  | ok a s' =>
      rw [hx] at h
      exact hQR a s' h
  | error failure s' =>
      rw [hx] at h
      exact hEF s' h

theorem Ends.bind {Q : α → σ → Prop} {R : β → σ → Prop} {E : σ → Prop} (h : Ends x s Q E)
    (hf : ∀ a s', Q a s' → Ends (f a) s' R E) : Ends (x >>= f) s R E := by
  unfold Ends at h ⊢
  rw [bind_apply]
  cases hx : x s with
  | ok a s' =>
      rw [hx] at h
      exact hf a s' h
  | error failure s' =>
      rw [hx] at h
      exact h

theorem Ends.get_bind {f : σ → EStateM Failure σ β} {R : β → σ → Prop} {E : σ → Prop}
    (h : Ends (f s) s R E) : Ends (get >>= f) s R E := by
  unfold Ends at h ⊢
  rwa [bind_apply, get_apply]

theorem Ends.pure {Q : α → σ → Prop} {E : σ → Prop} {a : α} (h : Q a s) :
    Ends (pure a : EStateM Failure σ α) s Q E := h

theorem Ends.throw {Q : α → σ → Prop} {E : σ → Prop} {failure : Failure} (h : E s) :
    Ends (throw failure : EStateM Failure σ α) s Q E := h

theorem Yields.ends {Q : α → σ → Prop} {E : σ → Prop} (h : Yields x s Q) : Ends x s Q E := by
  obtain ⟨a, s', hx, hQ⟩ := h
  simpa only [Ends, hx] using hQ

theorem Ends.yields {Q : α → σ → Prop} (h : Ends x s Q fun _ => False) : Yields x s Q := by
  unfold Ends at h
  cases hx : x s with
  | ok a s' =>
      rw [hx] at h
      exact ⟨a, s', hx, h⟩
  | error failure s' =>
      rw [hx] at h
      exact h.elim

theorem Ends.of_error {Q : α → σ → Prop} {E : σ → Prop} {failure : Failure} {s' : σ}
    (h : x s = .error failure s') (hE : E s') : Ends x s Q E := by
  simpa only [Ends, h] using hE

theorem Ends.of_ok {Q : α → σ → Prop} {E : σ → Prop} {a : α} {s' : σ} (h : Ends x s Q E)
    (hx : x s = .ok a s') : Q a s' := by
  simpa only [Ends, hx] using h

theorem Ends.and {Q R : α → σ → Prop} {E F : σ → Prop} (h : Ends x s Q E) (h' : Ends x s R F) :
    Ends x s (fun a s' => Q a s' ∧ R a s') fun s' => E s' ∧ F s' := by
  unfold Ends at h h' ⊢
  cases hx : x s with
  | ok a s' =>
      rw [hx] at h h'
      exact ⟨h, h'⟩
  | error failure s' =>
      rw [hx] at h h'
      exact ⟨h, h'⟩

/-- What a value comes with, whatever a failure leaves. -/
theorem Ends.on_success {Q : α → σ → Prop} {E : σ → Prop} (h : Ends x s Q E) :
    Ends x s Q fun _ => True :=
  h.mono (fun _ _ hQ => hQ) fun _ _ => trivial

/-- Work that leaves a state of which `Q` holds, however it ends. -/
abbrev Leaves (x : EStateM Failure σ α) (s : σ) (Q : σ → Prop) : Prop :=
  Ends x s (fun _ => Q) Q

theorem Yields.and_leaves {Q : α → σ → Prop} {E : σ → Prop} (h : Yields x s Q)
    (hE : Leaves x s E) : Yields x s fun a s' => Q a s' ∧ E s' := by
  obtain ⟨a, s', hx, hQ⟩ := h
  simp only [Ends, hx] at hE
  exact ⟨a, s', hx, hQ, hE⟩

end Work

namespace Action

variable {α : Type} {s : Session} {statement : Statement}

theorem ofExcept_ok {e : Except Failure α} {a : α} (h : e = .ok a) (s : Session) :
    ofExcept e s = .ok a s := by
  rw [h]
  rfl

theorem ofExcept_error {e : Except Failure α} {failure : Failure} (h : e = .error failure)
    (s : Session) : ofExcept e s = .error failure s := by
  rw [h]
  rfl

theorem query_ok {q : String → Container → Except Failure α} {a : α}
    (h : q s.file s.contents = .ok a) : query q s = .ok a s :=
  ofExcept_ok h s

theorem query_error {q : String → Container → Except Failure α} {failure : Failure}
    (h : q s.file s.contents = .error failure) : query q s = .error failure s :=
  ofExcept_error h s

theorem ofExcept_spec {e : Except Failure α} {a : α} (h : e = .ok a) (s : Session) :
    Yields (ofExcept e) s fun b s' => b = a ∧ s' = s :=
  .intro (ofExcept_ok h s) ⟨rfl, rfl⟩

theorem query_spec {q : String → Container → Except Failure α} {a : α}
    (h : q s.file s.contents = .ok a) : Yields (query q) s fun b s' => b = a ∧ s' = s :=
  .intro (query_ok h) ⟨rfl, rfl⟩

/-- A query gives what it reads or fails, and leaves the session as it was. -/
theorem query_ends (q : String → Container → Except Failure α) (s : Session) :
    Ends (query q) s (fun a s' => q s.file s.contents = .ok a ∧ s' = s) fun s' => s' = s := by
  cases h : q s.file s.contents with
  | ok a => exact (query_spec h).ends.mono (fun _ _ ⟨ha, hs⟩ => ⟨ha ▸ rfl, hs⟩) fun _ h => h
  | error failure => exact .of_error (query_error h) rfl

theorem note_spec (change : Account → Account) (s : Session) :
    Yields (note change) s fun _ s' => s' = { s with account := change s.account } :=
  .intro rfl rfl

theorem count_spec (change : TileCounters → TileCounters) (s : Session) :
    Yields (count change) s fun _ s' =>
      s' = { s with account := { s.account with tiles := change s.account.tiles } } :=
  note_spec _ s

theorem execute_of_run {touched : Nat} {contents : Container}
    (hcheck : statement.check s.contents = .ok ()) (hfits : statement.values.all Cell.fits = true)
    (hwritable : s.writable = true) (hrun : statement.run s.contents = .ok (touched, contents)) :
    execute statement s = .ok touched { s with contents } := by
  simp only [execute, outcome, hcheck, hfits, hwritable, hrun, Bool.not_true, Bool.false_eq_true,
    if_false]

theorem execute_of_run_error {why : StatementError} (hcheck : statement.check s.contents = .ok ())
    (hfits : statement.values.all Cell.fits = true) (hwritable : s.writable = true)
    (hrun : statement.run s.contents = .error why) :
    execute statement s = .error (.io (.statement s.file why)) s := by
  simp only [execute, outcome, hcheck, hfits, hwritable, hrun, Bool.not_true, Bool.false_eq_true,
    if_false]

theorem execute_of_unfit (hcheck : statement.check s.contents = .ok ())
    (hfits : statement.values.all Cell.fits = false) :
    execute statement s = .error .outOfRange s := by
  simp only [execute, outcome, hcheck, hfits, Bool.not_false, if_true]

end Action

end TileAtlas
