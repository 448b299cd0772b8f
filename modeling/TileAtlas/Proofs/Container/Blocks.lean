import TileAtlas.Proofs.Container.Catalogue

/-!
# Programs with transaction blocks

A program writes to an open container, raises and handles failures, looks at the session, and runs
parts of itself in transactions, which may stand in one another.  It is carried out as a whole, or
step by step.  Step by step the end of a block is a frame of what is still to be done, and the
database is in a transaction of its own, besides the flag of the session.

The frame and the flag are there at the same time, however blocks are nested and wherever failures
are raised and handled.  So a block that is rejected takes nothing from the block around it.  The
transaction of the database is there with them until a write breaks a rule whose breach ends the
transaction: the database then goes back to where the block began, and what the block writes from
then on is kept however the block is left.
-/

namespace TileAtlas

/-- What the database takes back when a write breaks a rule of its table: the write, or all of the
transaction that it is in. -/
inductive Conflict
  | abort
  | rollback
  deriving DecidableEq

/-- Whether a write that has failed ends the transaction that it is in. -/
def Conflict.ends : Conflict → Failure → Bool
  | rollback, .fault (.io (.statement _ (.missing ..))) => true
  | rollback, .fault (.io (.statement _ (.duplicate ..))) => true
  | _, _ => false

/-- A program on an open container. -/
inductive Program
  | pass
  | write (statement : Statement) (conflict : Conflict)
  | raise (failure : Failure)
  /-- Goes on as the session tells. -/
  | look (next : Session → Program)
  | seq (first second : Program)
  /-- Handles those failures of the body that it catches. -/
  | guard (body : Program) (catches : Failure → Bool) (handler : Failure → Program)
  | block (body : Program)

namespace Program

/-- A program carried out as a whole, where a write that fails does nothing. -/
def run : Program → Action Unit
  | pass => pure ()
  | write statement _ => do
    let _ ← Action.execute statement
  | raise failure => throw failure
  | look next => do
    let session ← get
    (next session).run
  | seq first second => do
    first.run
    second.run
  | guard body catches handler => tryCatch body.run fun failure =>
    if catches failure then (handler failure).run else throw failure
  | block body => Action.transaction body.run

/-! ### Step by step -/

/-- What is still to be done after a part of a program. -/
inductive Frame
  | next (program : Program)
  | handle (catches : Failure → Bool) (handler : Failure → Program)
  /-- The end of a block. -/
  | leave

def Frame.isLeave : Frame → Bool
  | leave => true
  | _ => false

theorem countP_next (program : Program) (frames : List Frame) :
    (Frame.next program :: frames).countP Frame.isLeave = frames.countP Frame.isLeave :=
  List.countP_cons_of_neg (by simp [Frame.isLeave])

theorem countP_handle (catches : Failure → Bool) (handler : Failure → Program)
    (frames : List Frame) :
    (Frame.handle catches handler :: frames).countP Frame.isLeave =
      frames.countP Frame.isLeave :=
  List.countP_cons_of_neg (by simp [Frame.isLeave])

inductive Control
  | eval (program : Program)
  | done
  | raised (failure : Failure)

/-- What becomes of the database. -/
inductive Event
  | wrote (statement : Statement)
  /-- A write has failed and ended the transaction. -/
  | ended

structure Config where
  control : Control
  frames : List Frame
  session : Session
  /-- The contents that a rollback restores, while the database is in a transaction. -/
  journal : Option Container

namespace Config

/-- The number of blocks that control is inside. -/
def depth (c : Config) : Nat := c.frames.countP Frame.isLeave

/-- Whether a failure of a write ends the transaction of the database, if it is in one. -/
def ends (conflict : Conflict) (failure : Failure) (journal : Option Container) : Bool :=
  journal.isSome && conflict.ends failure

/-- What a step does to the database. -/
def events (c : Config) : List Event :=
  match c.control with
  | .eval (.write statement conflict) =>
    match Action.outcome c.session statement with
    | .ok _ => [.wrote statement]
    | .error failure => if ends conflict failure c.journal then [.ended] else []
  | _ => []

def perform (statement : Statement) (conflict : Conflict) (frames : List Frame) (s : Session)
    (journal : Option Container) : Config :=
  match Action.outcome s statement with
  | .ok (_, contents) => ⟨.done, frames, { s with contents }, journal⟩
  | .error failure =>
    if ends conflict failure journal then
      ⟨.raised failure, frames, { s with contents := journal.getD s.contents }, none⟩
    else ⟨.raised failure, frames, s, journal⟩

def dispatch (catches : Failure → Bool) (handler : Failure → Program) (failure : Failure)
    (frames : List Frame) (s : Session) (journal : Option Container) : Config :=
  if catches failure then ⟨.eval (handler failure), frames, s, journal⟩
  else ⟨.raised failure, frames, s, journal⟩

/-- Enters a block.  The flag of the session is asked first, then the database. -/
def enter (body : Program) (frames : List Frame) (s : Session) (journal : Option Container) :
    Config :=
  if s.inTransaction then ⟨.raised (.io (.nested s.file)), frames, s, journal⟩
  else match journal with
    | some _ => ⟨.raised (.io (.stated (s.file ++
        ": cannot start a transaction within a transaction"))), frames, s, journal⟩
    | none => ⟨.eval body, .leave :: frames, { s with inTransaction := true }, some s.contents⟩

/-- What is raised where a block has to be kept that is no longer a transaction. -/
def noTransaction (s : Session) : Failure :=
  .io (.stated (s.file ++ ": cannot commit - no transaction is active"))

/-- Leaves a block whose body has ended. -/
def commit (frames : List Frame) (s : Session) (journal : Option Container) : Config :=
  match journal with
  | some _ => ⟨.done, frames, { s with inTransaction := false }, none⟩
  | none => ⟨.raised (noTransaction s), frames, { s with inTransaction := false }, none⟩

/-- Leaves a block whose body has raised a failure. -/
def rollback (failure : Failure) (frames : List Frame) (s : Session)
    (journal : Option Container) : Config :=
  ⟨.raised failure, frames,
    { s with inTransaction := false, contents := journal.getD s.contents }, none⟩

def step : Config → Option Config
  | ⟨.eval .pass, frames, s, journal⟩ => some ⟨.done, frames, s, journal⟩
  | ⟨.eval (.write statement conflict), frames, s, journal⟩ =>
    some (perform statement conflict frames s journal)
  | ⟨.eval (.raise failure), frames, s, journal⟩ => some ⟨.raised failure, frames, s, journal⟩
  | ⟨.eval (.look next), frames, s, journal⟩ => some ⟨.eval (next s), frames, s, journal⟩
  | ⟨.eval (.seq first second), frames, s, journal⟩ =>
    some ⟨.eval first, .next second :: frames, s, journal⟩
  | ⟨.eval (.guard body catches handler), frames, s, journal⟩ =>
    some ⟨.eval body, .handle catches handler :: frames, s, journal⟩
  | ⟨.eval (.block body), frames, s, journal⟩ => some (enter body frames s journal)
  | ⟨.done, [], _, _⟩ => none
  | ⟨.done, .next program :: frames, s, journal⟩ => some ⟨.eval program, frames, s, journal⟩
  | ⟨.done, .handle _ _ :: frames, s, journal⟩ => some ⟨.done, frames, s, journal⟩
  | ⟨.done, .leave :: frames, s, journal⟩ => some (commit frames s journal)
  | ⟨.raised _, [], _, _⟩ => none
  | ⟨.raised failure, .next _ :: frames, s, journal⟩ => some ⟨.raised failure, frames, s, journal⟩
  | ⟨.raised failure, .handle catches handler :: frames, s, journal⟩ =>
    some (dispatch catches handler failure frames s journal)
  | ⟨.raised failure, .leave :: frames, s, journal⟩ => some (rollback failure frames s journal)

/-- Whether some steps lead from one point of a program to another, with some events. -/
inductive Follows : Config → List Event → Config → Prop
  | refl (c : Config) : Follows c [] c
  | step {c c₁ c' : Config} {events : List Event} :
      c.step = some c₁ → Follows c₁ events c' → Follows c (c.events ++ events) c'

theorem Follows.trans {c c₁ c' : Config} {events more : List Event}
    (h : Follows c events c₁) (h' : Follows c₁ more c') : Follows c (events ++ more) c' := by
  induction h with
  | refl => exact h'
  | step hstep _ ih =>
      rw [List.append_assoc]
      exact .step hstep (ih h')

/-- The point of a program some steps on, or the end if that is nearer. -/
def advance : Nat → Config → Config
  | 0, c => c
  | n + 1, c =>
    match c.step with
    | none => c
    | some c₁ => c₁.advance n

theorem follows_advance (n : Nat) (c : Config) : ∃ events, Follows c events (c.advance n) := by
  induction n generalizing c with
  | zero => exact ⟨[], .refl c⟩
  | succ n ih =>
      rw [advance]
      split
      · exact ⟨[], .refl c⟩
      next c₁ hstep =>
        obtain ⟨events, h⟩ := ih c₁
        exact ⟨_, .step hstep h⟩

/-- Steps that have come to an end have come to the only one. -/
theorem Follows.eq_of_step_eq_none {c last last' : Config} {events events' : List Event}
    (h : Follows c events last) (hlast : last.step = none) (h' : Follows c events' last')
    (hlast' : last'.step = none) : events' = events ∧ last' = last := by
  induction h generalizing events' with
  | refl =>
      cases h' with
      | refl => exact ⟨rfl, rfl⟩
      | step hstep _ => rw [hlast] at hstep; cases hstep
  | step hstep _ ih =>
      cases h' with
      | refl => rw [hlast'] at hstep; cases hstep
      | step hstep' hrest =>
          obtain rfl := Option.some.inj (hstep.symm.trans hstep')
          obtain ⟨rfl, rfl⟩ := ih hlast hrest
          exact ⟨rfl, rfl⟩

end Config

open Config

/-- The point of a program at which a part of it has come to a result. -/
def after (result : EStateM.Result Failure Session Unit) (frames : List Frame)
    (journal : Option Container) : Config :=
  match result with
  | .ok _ s => ⟨.done, frames, s, journal⟩
  | .error failure s => ⟨.raised failure, frames, s, journal⟩

/-- Whether carrying out some statements one after the other leads from some contents to others. -/
inductive Carries : Container → List Statement → Container → Prop
  | nil (c : Container) : Carries c [] c
  | cons {c c₁ c' : Container} {statement : Statement} {touched : Nat} {rest : List Statement} :
      statement.run c = .ok (touched, c₁) → Carries c₁ rest c' → Carries c (statement :: rest) c'

/-- Whether some events lead from a state of the database to another: its contents, and those that
a rollback restores while it is in a transaction. -/
inductive Replays : Container → Option Container → List Event → Container → Option Container → Prop
  | nil (c : Container) (journal : Option Container) : Replays c journal [] c journal
  | wrote {c c₁ c' : Container} {journal journal' : Option Container} {statement : Statement}
      {touched : Nat} {rest : List Event} :
      statement.run c = .ok (touched, c₁) → Replays c₁ journal rest c' journal' →
        Replays c journal (.wrote statement :: rest) c' journal'
  | ended {c c' before : Container} {journal' : Option Container} {rest : List Event} :
      Replays before none rest c' journal' →
        Replays c (some before) (.ended :: rest) c' journal'

theorem Replays.trans {c c₁ c' : Container} {journal journal₁ journal' : Option Container}
    {events more : List Event} (h : Replays c journal events c₁ journal₁)
    (h' : Replays c₁ journal₁ more c' journal') : Replays c journal (events ++ more) c' journal' := by
  induction h with
  | nil => exact h'
  | wrote hrun _ ih => exact .wrote hrun (ih h')
  | ended _ ih => exact .ended (ih h')

/-- As long as the transaction lasts, all that is written counts.  A transaction ends but once, and
after that what has been written from there on. -/
theorem Replays.cases {c c' : Container} {journal journal' : Option Container} {events : List Event}
    (h : Replays c journal events c' journal') :
    (journal' = journal ∧ ∃ writes, events = writes.map .wrote ∧ Carries c writes c') ∨
    (journal' = none ∧ ∃ (before : Container) (first rest : List Statement),
      journal = some before ∧ events = first.map .wrote ++ .ended :: rest.map .wrote ∧
      Carries before rest c') := by
  induction h with
  | nil c journal => exact .inl ⟨rfl, [], rfl, .nil c⟩
  | wrote hrun _ ih =>
      rcases ih with ⟨rfl, writes, rfl, hcarries⟩ | ⟨rfl, before, first, rest, rfl, rfl, hcarries⟩
      · exact .inl ⟨rfl, _ :: writes, rfl, .cons hrun hcarries⟩
      · exact .inr ⟨rfl, before, _ :: first, rest, rfl, rfl, hcarries⟩
  | ended _ ih =>
      rcases ih with ⟨rfl, writes, rfl, hcarries⟩ | ⟨-, before, first, rest, hnone, -⟩
      · exact .inr ⟨rfl, _, [], writes, rfl, rfl, hcarries⟩
      · cases hnone

theorem ended_not_mem (writes : List Statement) : Event.ended ∉ writes.map Event.wrote := by
  simp

/-! ### The flag -/

/-- Whether the flag of the session is set while control is inside a block, and only then, and the
database is in a transaction only there. -/
structure Config.Sound (c : Config) : Prop where
  single : c.depth ≤ 1
  flag : c.session.inTransaction = true ↔ c.depth = 1
  journal : c.journal.isSome = true → c.depth = 1

theorem Config.Sound.of_eq {c c' : Config} (h : c.Sound) (hdepth : c'.depth = c.depth)
    (hflag : c'.session.inTransaction = c.session.inTransaction)
    (hjournal : c'.journal = c.journal ∨ c'.journal = none) : c'.Sound := by
  refine ⟨hdepth ▸ h.single, by rw [hflag, hdepth, h.flag], fun hsome => ?_⟩
  rcases hjournal with hsame | hnone
  · rw [hdepth, h.journal (hsame ▸ hsome)]
  · rw [hnone] at hsome
    cases hsome

theorem sound_enter {body : Program} {frames : List Frame} {s : Session}
    {journal : Option Container} (h : Config.Sound ⟨.eval (.block body), frames, s, journal⟩) :
    (enter body frames s journal).Sound := by
  unfold enter
  split
  · exact h.of_eq rfl rfl (.inl rfl)
  next hflag =>
    split
    · exact h.of_eq rfl rfl (.inl rfl)
    · have hdepth : frames.countP Frame.isLeave ≠ 1 := fun hone => hflag (h.flag.2 hone)
      have hzero : frames.countP Frame.isLeave = 0 := by
        have hsingle : frames.countP Frame.isLeave ≤ 1 := h.single
        omega
      have hone : depth ⟨.eval body, .leave :: frames, { s with inTransaction := true },
          some s.contents⟩ = 1 := by
        rw [depth, List.countP_cons_of_pos rfl, hzero]
      exact ⟨Nat.le_of_eq hone, iff_of_true rfl hone, fun _ => hone⟩

/-- Outside of all blocks the flag is not set and the database is in no transaction. -/
theorem sound_outside {control : Control} {frames : List Frame} {s : Session}
    (hdepth : frames.countP Frame.isLeave = 0) (hflag : s.inTransaction = false) :
    Config.Sound ⟨control, frames, s, none⟩ := by
  have hzero : depth ⟨control, frames, s, none⟩ = 0 := hdepth
  refine ⟨hzero ▸ Nat.zero_le 1, iff_of_false ?_ ?_, nofun⟩
  · simp [hflag]
  · simp [hzero]

theorem step_sound {c c' : Config} (h : c.Sound) (hstep : c.step = some c') : c'.Sound := by
  obtain ⟨control, frames, s, journal⟩ := c
  have houter {frame : Frame} {rest : List Frame} (hframes : frames = frame :: rest)
      (hleave : frame.isLeave = true) : rest.countP Frame.isLeave = 0 := by
    have hsingle : frames.countP Frame.isLeave ≤ 1 := h.single
    rw [hframes, List.countP_cons_of_pos hleave] at hsingle
    omega
  cases control with
  | eval program =>
      cases program with
      | pass | raise failure | look next =>
          obtain rfl := Option.some.inj hstep
          exact h.of_eq rfl rfl (.inl rfl)
      | write statement conflict =>
          obtain rfl := Option.some.inj hstep
          unfold perform
          split
          · exact h.of_eq rfl rfl (.inl rfl)
          · split
            · exact h.of_eq rfl rfl (.inr rfl)
            · exact h.of_eq rfl rfl (.inl rfl)
      | seq first second =>
          obtain rfl := Option.some.inj hstep
          exact h.of_eq (countP_next ..) rfl (.inl rfl)
      | guard body catches handler =>
          obtain rfl := Option.some.inj hstep
          exact h.of_eq (countP_handle ..) rfl (.inl rfl)
      | block body =>
          obtain rfl := Option.some.inj hstep
          exact sound_enter h
  | done =>
      cases frames with
      | nil => cases hstep
      | cons frame rest =>
          cases frame with
          | next program =>
              obtain rfl := Option.some.inj hstep
              exact h.of_eq (countP_next ..).symm rfl (.inl rfl)
          | handle catches handler =>
              obtain rfl := Option.some.inj hstep
              exact h.of_eq (countP_handle ..).symm rfl (.inl rfl)
          | leave =>
              obtain rfl := Option.some.inj hstep
              unfold commit
              cases journal <;> exact sound_outside (houter rfl rfl) rfl
  | raised failure =>
      cases frames with
      | nil => cases hstep
      | cons frame rest =>
          cases frame with
          | next program =>
              obtain rfl := Option.some.inj hstep
              exact h.of_eq (countP_next ..).symm rfl (.inl rfl)
          | handle catches handler =>
              obtain rfl := Option.some.inj hstep
              unfold dispatch
              split <;>
                exact h.of_eq (countP_handle ..).symm rfl (.inl rfl)
          | leave =>
              obtain rfl := Option.some.inj hstep
              exact sound_outside (houter rfl rfl) rfl

theorem follows_sound {c c' : Config} {events : List Event} (h : Follows c events c')
    (hc : c.Sound) : c'.Sound := by
  induction h with
  | refl => exact hc
  | step hstep _ ih => exact ih (step_sound hc hstep)

/-! ### Whole programs -/

/-- Whether some steps lead on with the flag as it was, and inside a block with the database that
their events make. -/
structure Leads (c : Config) (events : List Event) (c' : Config) : Prop where
  follows : Follows c events c'
  flag : c'.session.inTransaction = c.session.inTransaction
  outside : c.journal = none → c'.journal = none
  inside : c.session.inTransaction = true →
    Replays c.session.contents c.journal events c'.session.contents c'.journal

theorem Leads.trans {c c₁ c' : Config} {events more : List Event} (h : Leads c events c₁)
    (h' : Leads c₁ more c') : Leads c (events ++ more) c' where
  follows := h.follows.trans h'.follows
  flag := h'.flag.trans h.flag
  outside hnone := h'.outside (h.outside hnone)
  inside hflag := (h.inside hflag).trans (h'.inside (h.flag.trans hflag))

theorem follows_of_step {c c' : Config} (hstep : c.step = some c') (hevents : c.events = []) :
    Follows c [] c' := by
  have hfollows := Follows.step hstep (.refl c')
  rwa [hevents] at hfollows

theorem leads_of_step {c c' : Config} (hstep : c.step = some c') (hevents : c.events = [])
    (hsession : c'.session = c.session) (hjournal : c'.journal = c.journal) : Leads c [] c' := by
  refine ⟨follows_of_step hstep hevents, by rw [hsession], fun hnone => hjournal.trans hnone, ?_⟩
  intro _
  rw [hsession, hjournal]
  exact .nil _ _

/-- A step that leaves the session alone may be followed by others. -/
theorem Leads.after_step {c c₁ c' : Config} {events : List Event} (hstep : c.step = some c₁)
    (hevents : c.events = []) (hsession : c₁.session = c.session)
    (hjournal : c₁.journal = c.journal) (h : Leads c₁ events c') : Leads c events c' :=
  (leads_of_step hstep hevents hsession hjournal).trans h

/-- Outside of blocks there is no transaction, whatever has been done. -/
theorem Leads.journal_eq_none {c c' : Config} {events : List Event} (h : Leads c events c')
    (hc : c.session.inTransaction = false → c.journal = none) :
    c'.session.inTransaction = false → c'.journal = none := fun hflag =>
  h.outside (hc (h.flag.symm.trans hflag))

variable {frames : List Frame} {s : Session} {journal : Option Container}

theorem run_seq (first second : Program) (s : Session) :
    (seq first second).run s = match first.run s with
      | .ok _ s' => second.run s'
      | .error failure s' => .error failure s' := by
  show (first.run >>= fun _ => second.run) s = _
  rw [bind_apply]
  cases first.run s <;> rfl

theorem run_guard (body : Program) (catches : Failure → Bool) (handler : Failure → Program)
    (s : Session) : (guard body catches handler).run s = match body.run s with
      | .ok a s' => .ok a s'
      | .error failure s' =>
        if catches failure then (handler failure).run s' else .error failure s' := by
  show EStateM.tryCatch body.run _ s = _
  unfold EStateM.tryCatch
  cases body.run s with
  | ok a s' => rfl
  | error failure s' =>
      dsimp only
      cases catches failure <;> rfl

/-- Whether a part of a program comes to a result after some events.  If none of them has ended the
transaction, it is the result that the part has as a whole. -/
structure Comes (program : Program) (frames : List Frame) (s : Session)
    (journal : Option Container) (events : List Event)
    (result : EStateM.Result Failure Session Unit) (journal' : Option Container) : Prop where
  leads : Leads ⟨.eval program, frames, s, journal⟩ events (after result frames journal')
  whole : .ended ∉ events → result = program.run s ∧ journal' = journal

section Write

variable {statement : Statement} {conflict : Conflict} {failure : Failure}

theorem run_write (statement : Statement) (conflict : Conflict) (s : Session) :
    (write statement conflict).run s = match Action.outcome s statement with
      | .ok (_, contents) => .ok () { s with contents }
      | .error failure => .error failure s := by
  show (Action.execute statement >>= fun _ => pure ()) s = _
  rw [bind_apply, Action.execute]
  cases Action.outcome s statement <;> rfl

/-- A write that the database takes. -/
theorem leads_of_taken {touched : Nat} {contents : Container}
    (houtcome : Action.outcome s statement = .ok (touched, contents)) :
    Leads ⟨.eval (.write statement conflict), frames, s, journal⟩ [.wrote statement]
      ⟨.done, frames, { s with contents }, journal⟩ := by
  have hexecute : Action.execute statement s = .ok touched { s with contents } := by
    simp only [Action.execute, houtcome]
  obtain ⟨made, hmade, hsession⟩ := (Action.execute_ends statement s).of_ok hexecute
  obtain rfl : contents = made := congrArg Session.contents hsession
  have hstep : step ⟨.eval (.write statement conflict), frames, s, journal⟩ =
      some ⟨.done, frames, { s with contents }, journal⟩ := by
    simp only [step, perform, houtcome]
  have hevents : events ⟨.eval (.write statement conflict), frames, s, journal⟩ =
      [.wrote statement] := by simp only [events, houtcome]
  have hfollows := Follows.step hstep (.refl _)
  rw [hevents] at hfollows
  exact ⟨hfollows, rfl, id, fun _ => .wrote hmade (.nil contents journal)⟩

/-- A write that fails and is taken back alone. -/
theorem leads_of_refused (houtcome : Action.outcome s statement = .error failure)
    (hends : ends conflict failure journal = false) :
    Leads ⟨.eval (.write statement conflict), frames, s, journal⟩ []
      ⟨.raised failure, frames, s, journal⟩ := by
  have hstep : step ⟨.eval (.write statement conflict), frames, s, journal⟩ =
      some ⟨.raised failure, frames, s, journal⟩ := by
    simp only [step, perform, houtcome, hends, Bool.false_eq_true, if_false]
  have hevents : events ⟨.eval (.write statement conflict), frames, s, journal⟩ = [] := by
    simp only [events, houtcome, hends, Bool.false_eq_true, if_false]
  exact leads_of_step hstep hevents rfl rfl

/-- A write that fails and takes the transaction back with it. -/
theorem leads_of_ended {before : Container}
    (houtcome : Action.outcome s statement = .error failure)
    (hends : ends conflict failure (some before) = true) :
    Leads ⟨.eval (.write statement conflict), frames, s, some before⟩ [.ended]
      ⟨.raised failure, frames, { s with contents := before }, none⟩ := by
  have hstep : step ⟨.eval (.write statement conflict), frames, s, some before⟩ =
      some ⟨.raised failure, frames, { s with contents := before }, none⟩ := by
    simp only [step, perform, houtcome, hends, if_true, Option.getD_some]
  have hevents : events ⟨.eval (.write statement conflict), frames, s, some before⟩ =
      [.ended] := by simp only [events, houtcome, hends, if_true]
  have hfollows := Follows.step hstep (.refl _)
  rw [hevents] at hfollows
  exact ⟨hfollows, rfl, fun hnone => absurd hnone (Option.some_ne_none before),
    fun _ => .ended (.nil before none)⟩

theorem comes_write (statement : Statement) (conflict : Conflict) (frames : List Frame) (s : Session)
    (journal : Option Container) : ∃ events result journal',
      Comes (write statement conflict) frames s journal events result journal' := by
  have hrun := run_write statement conflict s
  cases houtcome : Action.outcome s statement with
  | ok taken =>
      obtain ⟨touched, contents⟩ := taken
      rw [houtcome] at hrun
      exact ⟨_, .ok () { s with contents }, journal, leads_of_taken houtcome,
        fun _ => ⟨hrun.symm, rfl⟩⟩
  | error failure =>
      rw [houtcome] at hrun
      cases hends : ends conflict failure journal with
      | false =>
          exact ⟨_, .error failure s, journal, leads_of_refused houtcome hends,
            fun _ => ⟨hrun.symm, rfl⟩⟩
      | true =>
          cases journal with
          | none => cases hends
          | some before =>
              exact ⟨_, .error failure { s with contents := before }, none,
                leads_of_ended houtcome hends,
                fun hno => absurd (List.mem_singleton_self _) hno⟩

end Write

/-- The point of a program at which a block has been entered. -/
def inside (body : Program) (frames : List Frame) (s : Session) : Config :=
  ⟨.eval body, .leave :: frames, { s with inTransaction := true }, some s.contents⟩

theorem step_block (body : Program) (frames : List Frame) (hflag : s.inTransaction = false) :
    step ⟨.eval (.block body), frames, s, none⟩ = some (inside body frames s) := by
  simp only [step, enter, hflag, Bool.false_eq_true, if_false, inside]

theorem step_nested (body : Program) (frames : List Frame) (journal : Option Container)
    (hflag : s.inTransaction = true) : step ⟨.eval (.block body), frames, s, journal⟩ =
      some ⟨.raised (.io (.nested s.file)), frames, s, journal⟩ := by
  simp only [step, enter, hflag, if_true]

theorem transaction_nested {α : Type} (body : Action α) (hflag : s.inTransaction = true) :
    Action.transaction body s = .error (.io (.nested s.file)) s := by
  simp only [Action.transaction, hflag, if_true]

/-- What a block comes to, by the result of its body and what is then left to be restored. -/
def closed : EStateM.Result Failure Session Unit → Option Container →
    EStateM.Result Failure Session Unit
  | .ok a s, some _ => .ok a { s with inTransaction := false }
  | .ok _ s, none => .error (noTransaction s) { s with inTransaction := false }
  | .error failure s, journal =>
    .error failure { s with inTransaction := false, contents := journal.getD s.contents }

theorem step_leave (result : EStateM.Result Failure Session Unit) (frames : List Frame)
    (journal : Option Container) : step (after result (.leave :: frames) journal) =
      some (after (closed result journal) frames none) := by
  cases result <;> cases journal <;> rfl

theorem events_after (result : EStateM.Result Failure Session Unit) (frames : List Frame)
    (journal : Option Container) : (after result frames journal).events = [] := by
  cases result <;> rfl

/-- Where the transaction lasts, a block comes to what the transaction comes to as a whole. -/
theorem closed_run (body : Program) (hflag : s.inTransaction = false) :
    closed (body.run { s with inTransaction := true }) (some s.contents) =
      Action.transaction body.run s := by
  simp only [Action.transaction, hflag, Bool.false_eq_true, if_false]
  cases body.run { s with inTransaction := true } <;> rfl

theorem flag_closed (result : EStateM.Result Failure Session Unit) (frames : List Frame)
    (journal : Option Container) :
    (after (closed result journal) frames none).session.inTransaction = false := by
  cases result <;> cases journal <;> rfl

namespace Comes

variable {first second body : Program} {catches : Failure → Bool} {handler : Failure → Program}
  {events more : List Event} {result : EStateM.Result Failure Session Unit} {failure : Failure}
  {s₁ : Session} {journal₁ journal' : Option Container}

/-- Where a part and what comes after it end no transaction, the part does not. -/
theorem whole_left {program : Program} (h : Comes program frames s journal events result journal')
    (hno : .ended ∉ events ++ more) : result = program.run s ∧ journal' = journal :=
  h.whole fun hmem => hno (List.mem_append_left _ hmem)

theorem seq_ok
    (h : Comes first (.next second :: frames) s journal events (.ok () s₁) journal₁)
    (h' : Comes second frames s₁ journal₁ more result journal') :
    Comes (seq first second) frames s journal (events ++ more) result journal' where
  leads := .after_step rfl rfl rfl rfl (h.leads.trans (.after_step rfl rfl rfl rfl h'.leads))
  whole hno := by
    obtain ⟨hfirst, rfl⟩ := h.whole_left hno
    rw [run_seq, ← hfirst]
    exact h'.whole fun hmem => hno (List.mem_append_right _ hmem)

theorem seq_error
    (h : Comes first (.next second :: frames) s journal events (.error failure s₁) journal₁) :
    Comes (seq first second) frames s journal (events ++ []) (.error failure s₁) journal₁ where
  leads := .after_step rfl rfl rfl rfl (h.leads.trans (leads_of_step rfl rfl rfl rfl))
  whole hno := by
    obtain ⟨hfirst, hsame⟩ := h.whole_left hno
    rw [run_seq, ← hfirst]
    exact ⟨rfl, hsame⟩

theorem guard_ok
    (h : Comes body (.handle catches handler :: frames) s journal events (.ok () s₁) journal₁) :
    Comes (guard body catches handler) frames s journal (events ++ []) (.ok () s₁) journal₁ where
  leads := .after_step rfl rfl rfl rfl (h.leads.trans (leads_of_step rfl rfl rfl rfl))
  whole hno := by
    obtain ⟨hbody, hsame⟩ := h.whole_left hno
    rw [run_guard, ← hbody]
    exact ⟨rfl, hsame⟩

theorem guard_passes (h : Comes body (.handle catches handler :: frames) s journal events
      (.error failure s₁) journal₁) (hcatches : catches failure = false) :
    Comes (guard body catches handler) frames s journal (events ++ []) (.error failure s₁)
      journal₁ where
  leads := by
    have hstep : step ⟨.raised failure, .handle catches handler :: frames, s₁, journal₁⟩ =
        some ⟨.raised failure, frames, s₁, journal₁⟩ := by
      simp only [step, dispatch, hcatches, Bool.false_eq_true, if_false]
    exact .after_step rfl rfl rfl rfl (h.leads.trans (leads_of_step hstep rfl rfl rfl))
  whole hno := by
    obtain ⟨hbody, hsame⟩ := h.whole_left hno
    rw [run_guard, ← hbody]
    simp only [hcatches, Bool.false_eq_true, if_false, hsame, and_self]

theorem guard_handles (h : Comes body (.handle catches handler :: frames) s journal events
      (.error failure s₁) journal₁) (hcatches : catches failure = true)
    (h' : Comes (handler failure) frames s₁ journal₁ more result journal') :
    Comes (guard body catches handler) frames s journal (events ++ more) result journal' where
  leads := by
    have hstep : step ⟨.raised failure, .handle catches handler :: frames, s₁, journal₁⟩ =
        some ⟨.eval (handler failure), frames, s₁, journal₁⟩ := by
      simp only [step, dispatch, hcatches, if_true]
    exact .after_step rfl rfl rfl rfl (h.leads.trans (.after_step hstep rfl rfl rfl h'.leads))
  whole hno := by
    obtain ⟨hbody, rfl⟩ := h.whole_left hno
    rw [run_guard, ← hbody]
    simp only [hcatches, if_true]
    exact h'.whole fun hmem => hno (List.mem_append_right _ hmem)

theorem block_nested (body : Program) (frames : List Frame) (journal : Option Container)
    (hflag : s.inTransaction = true) :
    Comes (block body) frames s journal [] (.error (.io (.nested s.file)) s) journal where
  leads := leads_of_step (step_nested body frames journal hflag) rfl rfl rfl
  whole _ := ⟨(transaction_nested body.run hflag).symm, rfl⟩

/-- Inside the block anything may become of the database.  The block itself starts and ends outside
of transactions. -/
theorem block_entered (hflag : s.inTransaction = false)
    (h : Comes body (.leave :: frames) { s with inTransaction := true } (some s.contents) events
      result journal') :
    Comes (block body) frames s none (events ++ []) (closed result journal') none where
  leads.follows := (follows_of_step (step_block body frames hflag) rfl).trans
    (h.leads.follows.trans
      (follows_of_step (step_leave result frames journal') (events_after ..)))
  leads.flag := by rw [hflag, flag_closed]
  leads.outside _ := by cases closed result journal' <;> rfl
  leads.inside htrue := absurd htrue (by simp [hflag])
  whole hno := by
    obtain ⟨rfl, rfl⟩ := h.whole_left hno
    exact ⟨closed_run body hflag, rfl⟩

end Comes

/-- Any part of a program comes to a result. -/
theorem exists_comes (program : Program) (frames : List Frame) (s : Session)
    (journal : Option Container) (hjournal : s.inTransaction = false → journal = none) :
    ∃ events result journal', Comes program frames s journal events result journal' := by
  induction program generalizing frames s journal with
  | pass =>
      exact ⟨[], .ok () s, journal, leads_of_step rfl rfl rfl rfl, fun _ => ⟨rfl, rfl⟩⟩
  | raise failure =>
      exact ⟨[], .error failure s, journal, leads_of_step rfl rfl rfl rfl, fun _ => ⟨rfl, rfl⟩⟩
  | write statement conflict => exact comes_write statement conflict frames s journal
  | look next ih =>
      obtain ⟨events, result, journal', h⟩ := ih s frames s journal hjournal
      exact ⟨events, result, journal', .after_step rfl rfl rfl rfl h.leads, h.whole⟩
  | seq first second ihFirst ihSecond =>
      obtain ⟨events, result, journal₁, h⟩ := ihFirst (.next second :: frames) s journal hjournal
      cases result with
      | ok a s₁ =>
          obtain ⟨more, result', journal', h'⟩ :=
            ihSecond frames s₁ journal₁ (h.leads.journal_eq_none hjournal)
          exact ⟨_, result', journal', h.seq_ok h'⟩
      | error failure s₁ => exact ⟨_, .error failure s₁, journal₁, h.seq_error⟩
  | guard body catches handler ihBody ihHandler =>
      obtain ⟨events, result, journal₁, h⟩ :=
        ihBody (.handle catches handler :: frames) s journal hjournal
      cases result with
      | ok a s₁ => exact ⟨_, .ok () s₁, journal₁, h.guard_ok⟩
      | error failure s₁ =>
          cases hcatches : catches failure with
          | false => exact ⟨_, .error failure s₁, journal₁, h.guard_passes hcatches⟩
          | true =>
              obtain ⟨more, result', journal', h'⟩ :=
                ihHandler failure frames s₁ journal₁ (h.leads.journal_eq_none hjournal)
              exact ⟨_, result', journal', h.guard_handles hcatches h'⟩
  | block body ih =>
      cases hflag : s.inTransaction with
      | true => exact ⟨_, _, journal, .block_nested body frames journal hflag⟩
      | false =>
          obtain rfl := hjournal hflag
          obtain ⟨events, result, journal', h⟩ := ih (.leave :: frames)
            { s with inTransaction := true } (some s.contents) nofun
          exact ⟨_, _, none, h.block_entered hflag⟩

/-- Whether a block that is come to is entered and left again, with some events in between.  While
the transaction lasts the block is left with the result of the transaction as a whole: if its body
has ended the contents are what its statements make of them, and if its body has raised a failure
they are what they were.  If a write has ended the transaction the contents are what the statements
after it make of those that there were, a failure is raised in any case, and nothing is restored. -/
structure Config.Completes (c : Config) (body : Program) (events : List Event)
    (ended left : Config) : Prop where
  entered : c.step = some (inside body c.frames c.session)
  follows : Follows (inside body c.frames c.session) events ended
  frames : ended.frames = .leave :: c.frames
  leaves : ended.step = some left
  sound : left.Sound
  depth : left.depth = 0
  lasted : .ended ∉ events → ∃ writes, events = writes.map .wrote ∧
    Carries c.session.contents writes ended.session.contents ∧
    left = after (Action.transaction body.run c.session) c.frames none ∧
    (ended.control = .done ∧ left.control = .done ∧
        left.session.contents = ended.session.contents ∨
      ∃ failure, ended.control = .raised failure ∧ left.control = .raised failure ∧
        left.session.contents = c.session.contents)
  lost : .ended ∈ events → ∃ first rest : List Statement,
    events = first.map .wrote ++ .ended :: rest.map .wrote ∧
    Carries c.session.contents rest ended.session.contents ∧
    left.session.contents = ended.session.contents ∧
    (ended.control = .done ∧ left.control = .raised (noTransaction ended.session) ∨
      ∃ failure, ended.control = .raised failure ∧ left.control = .raised failure)

theorem completes_of_sound {c : Config} {body : Program} (h : c.Sound)
    (hcontrol : c.control = .eval (.block body)) (hdepth : c.depth = 0) :
    ∃ events ended left, c.Completes body events ended left := by
  obtain ⟨control, frames, s, journal⟩ := c
  obtain rfl : control = .eval (.block body) := hcontrol
  have hflag : s.inTransaction = false :=
    Bool.eq_false_iff.2 fun htrue => by simpa [hdepth] using h.flag.1 htrue
  obtain rfl : journal = none :=
    Option.not_isSome_iff_eq_none.1 fun hsome => by simpa [hdepth] using h.journal hsome
  obtain ⟨events, result, journal', hbody⟩ := exists_comes body (.leave :: frames)
    { s with inTransaction := true } (some s.contents) nofun
  have hreplays := hbody.leads.inside rfl
  have hsound : (after (closed result journal') frames none).Sound := by
    cases result <;> cases journal' <;> exact sound_outside hdepth rfl
  have hframes : (after result (.leave :: frames) journal').frames = .leave :: frames := by
    cases result <;> rfl
  have hleft : (after (closed result journal') frames none).depth = 0 := by
    cases result <;> cases journal' <;> exact hdepth
  refine ⟨events, _, _, step_block body frames hflag, hbody.leads.follows, hframes,
    step_leave result frames journal', hsound, hleft, fun hno => ?_, fun hmem => ?_⟩
  · obtain ⟨rfl, rfl⟩ := hbody.whole hno
    rcases hreplays.cases with ⟨-, writes, rfl, hcarries⟩ | ⟨-, before, first, rest, -, rfl, -⟩
    · refine ⟨writes, rfl, hcarries, by rw [closed_run body hflag], ?_⟩
      cases body.run { s with inTransaction := true } with
      | ok a s' => exact .inl ⟨rfl, rfl, rfl⟩
      | error failure s' => exact .inr ⟨failure, rfl, rfl, rfl⟩
    · simp at hno
  · rcases hreplays.cases with ⟨-, writes, rfl, -⟩ | ⟨hnone, before, first, rest, hbefore, rfl, hcarries⟩
    · exact absurd hmem (ended_not_mem writes)
    · obtain rfl : s.contents = before := Option.some.inj hbefore
      cases result with
      | ok a s' =>
          obtain rfl : journal' = none := hnone
          exact ⟨first, rest, rfl, hcarries, rfl, .inl ⟨rfl, rfl⟩⟩
      | error failure s' =>
          obtain rfl : journal' = none := hnone
          exact ⟨first, rest, rfl, hcarries, rfl, .inr ⟨failure, rfl, rfl⟩⟩

/-- A program comes step by step to an end, and as long as no write ends a transaction it is the
result that the program has as a whole.  The flag of the session is set at those points that are
inside a block.  An attempt to enter a block inside another raises a failure before anything is
done, with the session and all that is still to be done as they were.  Any other block is entered
and left, and leaves the next one free to be entered. -/
theorem blocks_compose (file : String) (writable : Bool) (contents : Container)
    (program : Program) :
    let start : Config := ⟨.eval program, [], .start file writable contents, none⟩
    (∃ events result, (∀ events' last, Follows start events' last ∧ last.step = none ↔
        events' = events ∧ last = after result [] none) ∧
      (.ended ∉ events → result = program.run start.session)) ∧
    ∀ events config, Follows start events config → config.Sound ∧
      ∀ body, config.control = .eval (.block body) →
        (config.depth = 1 →
          Action.transaction body.run config.session =
            .error (.io (.nested config.session.file)) config.session ∧
          config.step =
            some { config with control := .raised (.io (.nested config.session.file)) }) ∧
        (config.depth = 0 → ∃ events ended left, config.Completes body events ended left) := by
  intro start
  have hstart : start.Sound := sound_outside rfl rfl
  obtain ⟨events, result, journal, hrun⟩ := exists_comes program [] start.session none fun _ => rfl
  have hlast (journal : Option Container) : (after result [] journal).step = none := by
    cases result <;> rfl
  obtain rfl : journal = none := by
    have hnone := hrun.leads.outside rfl
    cases result <;> exact hnone
  refine ⟨⟨events, result, fun events' last => ⟨?_, ?_⟩, fun hno => (hrun.whole hno).1⟩,
    fun _ config hfollows => ?_⟩
  · rintro ⟨hfollows, hend⟩
    exact hrun.leads.follows.eq_of_step_eq_none (hlast none) hfollows hend
  · rintro ⟨rfl, rfl⟩
    exact ⟨hrun.leads.follows, hlast none⟩
  · have hsound := follows_sound hfollows hstart
    refine ⟨hsound, fun body hcontrol => ⟨fun hdepth => ?_, completes_of_sound hsound hcontrol⟩⟩
    obtain ⟨control, frames, s, journal⟩ := config
    obtain rfl : control = .eval (.block body) := hcontrol
    have hflag : s.inTransaction = true := hsound.flag.2 hdepth
    exact ⟨transaction_nested body.run hflag, step_nested body frames journal hflag⟩

/-- A block whose body goes on after another block in it has been rejected, and a block after it
that fails. -/
theorem blocks_compose_rejected :
    let write (n : Int) : Program := .write (.insert "t" [("n", .int n)]) .rollback
    let container (rows : List Row) : Container := ⟨[⟨"t", [.free "n"], ["n"], rows⟩], []⟩
    let inner : Program := .block (write 2)
    let caught : Program := .guard inner (fun _ => true) fun _ => .pass
    let program : Program := .seq (.block (.seq (write 1) (.seq caught (write 3))))
      (.block (.seq (write 4) (.raise .noMemory)))
    let start : Config := ⟨.eval program, [], .start "a" true (container []), none⟩
    program.run start.session =
        .error .noMemory (.start "a" true (container [[.int 1], [.int 3]])) ∧
      ∃ events config, Follows start events config ∧ config.control = .eval inner ∧
        config.step = some { config with control := .raised (.io (.nested "a")) } := by
  intro write container inner caught program start
  obtain ⟨events, hfollows⟩ := start.follows_advance 7
  obtain ⟨-, hpoints⟩ := blocks_compose "a" true (container []) program
  obtain ⟨-, hrejected⟩ := ((hpoints events _ hfollows).2 (write 2) rfl).1 rfl
  exact ⟨rfl, events, _, hfollows, rfl, hrejected⟩

/-- A block that goes on after a write in it has ended the transaction keeps what it writes then,
though a failure leaves it; and if it ends, a failure leaves it as well, and what it has written
before is gone. -/
theorem not_blocks_compose :
    let write (n : Int) : Program := .write (.insert "t" [("n", .int n)]) .rollback
    let container (rows : List Row) : Container := ⟨[⟨"t", [.free "n"], ["n"], rows⟩], []⟩
    let caught : Program := .guard (write 0) (fun _ => true) fun _ => .pass
    let start (last : Program) : Config := ⟨.eval (.block (.seq (write 1) (.seq caught last))), [],
      .start "a" true (container [[.int 0]]), none⟩
    (∃ events last, Follows (start (.seq (write 2) (.raise .noMemory))) events last ∧
      last.step = none ∧ last.control = .raised .noMemory ∧
      last.session.contents = container [[.int 0], [.int 2]]) ∧
    ∃ events last, Follows (start .pass) events last ∧ last.step = none ∧
      last.control = .raised (noTransaction last.session) ∧
      last.session.contents = container [[.int 0]] := by
  intro write container caught start
  obtain ⟨events, hraises⟩ := (start (.seq (write 2) (.raise .noMemory))).follows_advance 15
  obtain ⟨events', hends⟩ := (start .pass).follows_advance 12
  exact ⟨⟨events, _, hraises, rfl, rfl, rfl⟩, ⟨events', _, hends, rfl, rfl, rfl⟩⟩

end Program

end TileAtlas
