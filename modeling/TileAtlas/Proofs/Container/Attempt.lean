import TileAtlas.Proofs.Container.Session

/-!
# Going on after a failure

Whoever works on an open container step by step may go on after a step has failed.  A sequence of
attempts gives what each step comes to, and the session that is left at the end.
-/

namespace TileAtlas.Action

variable {α β : Type} {x : Action α} {s : Session}

/-- What work comes to, a value or a failure, and the session that it leaves. -/
def attempt (x : Action α) (s : Session) : Except Failure α × Session :=
  match x s with
  | .ok a s' => (.ok a, s')
  | .error failure s' => (.error failure, s')

def attemptAll : List (Action α) → Session → List (Except Failure α) × Session
  | [], s => ([], s)
  | x :: rest, s =>
    let first := attempt x s
    let later := attemptAll rest first.2
    (first.1 :: later.1, later.2)

theorem attempt_ok {a : α} {s' : Session} (h : x s = .ok a s') : attempt x s = (.ok a, s') := by
  simp only [attempt, h]

theorem attempt_error {failure : Failure} {s' : Session} (h : x s = .error failure s') :
    attempt x s = (.error failure, s') := by
  simp only [attempt, h]

theorem attempt_eq_ok {a : α} {s' : Session} : attempt x s = (.ok a, s') ↔ x s = .ok a s' := by
  refine ⟨fun h => ?_, attempt_ok⟩
  unfold attempt at h
  cases hx : x s <;> rw [hx] at h <;> cases h
  rfl

theorem attempt_eq_error {failure : Failure} {s' : Session} :
    attempt x s = (.error failure, s') ↔ x s = .error failure s' := by
  refine ⟨fun h => ?_, attempt_error⟩
  unfold attempt at h
  cases hx : x s <;> rw [hx] at h <;> cases h
  rfl

theorem leaves_iff {Q : Session → Prop} : Leaves x s Q ↔ Q (attempt x s).2 := by
  unfold Leaves Ends attempt
  cases x s <;> rfl

/-- What every step keeps, whether it fails or not, a sequence of steps keeps. -/
theorem attemptAll_keeps {I : Session → Prop} {steps : List (Action α)}
    (hsteps : ∀ x ∈ steps, ∀ s, I s → Leaves x s I) (hs : I s) : I (attemptAll steps s).2 := by
  induction steps generalizing s with
  | nil => exact hs
  | cons x rest ih =>
      have hfirst : I (attempt x s).2 := leaves_iff.1 (hsteps x (List.mem_cons_self ..) s hs)
      exact ih (fun y hy => hsteps y (List.mem_cons_of_mem _ hy)) hfirst

end TileAtlas.Action
