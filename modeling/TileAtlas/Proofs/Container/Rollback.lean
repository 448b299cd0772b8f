import TileAtlas.Proofs.Container.Session
import TileAtlas.Tileset.Validation

/-!
# Work that can be taken back

Work in a transaction leaves the contents as they were if it fails.  Reading leaves them as they
were however it ends.  Other parts of a session are left alone in the same way by work that has
nothing to do with them.
-/

namespace TileAtlas

namespace Action

variable {α β : Type} {x : Action α} {f : α → Action β}

section Preserves

variable {γ : Type} {part : Session → γ}

/-- Work that leaves a part of the session as it was. -/
def Preserves (part : Session → γ) (x : Action α) : Prop :=
  ∀ s, Leaves x s fun s' => part s' = part s

theorem Preserves.bind (hx : Preserves part x) (hf : ∀ a, Preserves part (f a)) :
    Preserves part (x >>= f) :=
  fun s => (hx s).bind fun a s' hs' =>
    (hf a s').mono (fun _ _ h => h.trans hs') fun _ h => h.trans hs'

theorem preserves_pure (a : α) : Preserves part (pure a : Action α) := fun _ => rfl

theorem preserves_throw (failure : Failure) : Preserves part (throw failure : Action α) :=
  fun _ => rfl

theorem preserves_get : Preserves part (get : Action Session) := fun _ => rfl

theorem preserves_modify {change : Session → Session} (h : ∀ s, part (change s) = part s) :
    Preserves part (modify change : Action PUnit) := h

theorem preserves_ofExcept (e : Except Failure α) : Preserves part (ofExcept e) := by
  cases e with
  | ok a => exact preserves_pure a
  | error failure => exact preserves_throw failure

theorem preserves_query (q : String → Container → Except Failure α) : Preserves part (query q) :=
  preserves_get.bind fun _ => preserves_ofExcept _

theorem preserves_execute (h : ∀ (s : Session) contents, part { s with contents } = part s)
    (statement : Statement) : Preserves part (execute statement) := by
  intro s
  unfold Leaves Ends execute
  cases outcome s statement with
  | ok result => exact h s result.2
  | error failure => rfl

theorem leaves_ofExcept {I : Session → Prop} {s : Session} (e : Except Failure α) (hs : I s) :
    Leaves (ofExcept e) s I := by
  cases e with
  | ok a => exact hs
  | error failure => exact hs

theorem leaves_query {I : Session → Prop} {s : Session}
    (q : String → Container → Except Failure α) (hs : I s) : Leaves (query q) s I :=
  leaves_ofExcept _ hs

end Preserves

/-- Work that leaves the contents as they were if it fails. -/
def Restores (x : Action α) : Prop :=
  ∀ s, Ends x s (fun _ _ => True) fun s' => s'.contents = s.contents

/-- Work that leaves the contents as they were. -/
def Keeps (x : Action α) : Prop :=
  ∀ s, Leaves x s fun s' => s'.contents = s.contents

theorem transaction_restores (body : Action α) : Restores (transaction body) := by
  intro s
  unfold Ends transaction
  cases hnested : s.inTransaction
  · simp only [Bool.false_eq_true, if_false]
    cases body { s with inTransaction := true } <;> simp
  · simp

theorem Keeps.restores_bind (hx : Keeps x) (hf : ∀ a, Restores (f a)) : Restores (x >>= f) :=
  fun s => ((hx s).mono (fun _ _ h => h) fun _ h => h).bind fun a s' hs' =>
    (hf a s').mono (fun _ _ _ => trivial) fun _ h => h.trans hs'

theorem Keeps.bind (hx : Keeps x) (hf : ∀ a, Keeps (f a)) : Keeps (x >>= f) :=
  Preserves.bind hx hf

theorem keeps_pure (a : α) : Keeps (pure a : Action α) := preserves_pure a

theorem keeps_throw (failure : Failure) : Keeps (throw failure : Action α) :=
  preserves_throw failure

theorem keeps_get : Keeps (get : Action Session) := preserves_get

theorem keeps_modify {change : Session → Session} (h : ∀ s, (change s).contents = s.contents) :
    Keeps (modify change : Action PUnit) := h

theorem keeps_ofExcept (e : Except Failure α) : Keeps (ofExcept e) := preserves_ofExcept e

theorem keeps_query (q : String → Container → Except Failure α) : Keeps (query q) :=
  preserves_query q

theorem keeps_notify (notices : List Notice) : Keeps (notify notices) := fun _ => rfl

end Action

namespace Tileset

open TileAtlas.Action

theorem keeps_attach (shape : Shape) (batch : Int) : Keeps (attach shape batch) := by
  refine Keeps.bind (keeps_modify fun _ => ?_) fun _ => keeps_pure _
  rfl

theorem keeps_openIn (batch : Int) : Keeps (openIn batch) :=
  (keeps_query _).bind fun shape => keeps_attach shape batch

/-- Verifying the aggregate hash, or leaving it alone, changes nothing. -/
theorem keeps_settleAggHash {mode : AggHashMode} (hmode : mode ≠ .update) (stored : Option String)
    (computed : String) : Keeps (settleAggHash mode stored computed) := by
  cases mode with
  | off => exact keeps_pure _
  | verify =>
      cases stored with
      | none =>
          refine keeps_get.bind fun s => ?_
          exact (keeps_notify [nothingToVerify s.file]).bind fun _ => keeps_pure _
      | some hash =>
          unfold settleAggHash
          dsimp only
          split
          · exact keeps_pure _
          · exact keeps_throw _
  | update => exact absurd rfl hmode

theorem keeps_validate (t : Tileset) (integrity : IntegrityCheck) {mode : AggHashMode}
    (hmode : mode ≠ .update) : Keeps (t.validate integrity mode) :=
  (keeps_query _).bind fun _ => (keeps_query _).bind fun _ =>
    (keeps_settleAggHash hmode _ _).bind fun _ => keeps_get.bind fun _ => keeps_pure _

end Tileset

end TileAtlas
