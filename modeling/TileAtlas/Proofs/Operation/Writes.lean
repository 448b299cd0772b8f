import TileAtlas.Operation.Basic
import TileAtlas.Proofs.Container.Rollback
import TileAtlas.Proofs.Workspace.Follow

/-!
# The steps of an operation and the files

Reading leaves the files alone.  Work on a container writes to the file that a path name leads to,
and if it fails the file is as it was.  The file may have to be made first, and then a failure
leaves the directories along its path name and an empty container.
-/

namespace TileAtlas

namespace Operation

variable {α β : Type} {x : Operation α} {job : Job} {path : PathName}
  {output fresh : Option PathName} {files after : Workspace}

/-- The files after an output may have been written: some directories have been made, and what
the path name of the output leads to then is a container with new contents. -/
def Wrote (output : Option PathName) (files after : Workspace) : Prop :=
  files.Same after ∨ ∃ path ∈ output, ∃ made place contents, files.Grows made ∧
    ((∃ node, made.follow path = .found place node ∧ node ≠ .directory) ∨
      made.follow path = .vacant place) ∧
    (made.set place (.container contents)).Same after

/-- The files after work has failed that may have begun a new file: the same as before, or the
same with the directories along the path name and perhaps an empty container at its end. -/
def Failed (fresh : Option PathName) (files after : Workspace) : Prop :=
  files.Same after ∨ ∃ path ∈ fresh, ∃ made, files.makeDirectory path.parent = .ok made ∧
    ((∀ place, made.follow path ≠ .vacant place) ∧ made.Same after ∨
      ∃ place, made.follow path = .vacant place ∧ (made.set place (.container .empty)).Same after)

/-- Work that leaves the files alone. -/
def Stays (x : Operation α) : Prop := ∀ job, Leaves x job fun job' => job'.files = job.files

/-- Work that leaves the files alone and does not fail. -/
def Passes (x : Operation α) : Prop :=
  ∀ job, Ends x job (fun _ job' => job'.files = job.files) fun _ => False

/-- Work that writes to an output at most, and may begin a new file if it fails. -/
def Writes (output fresh : Option PathName) (x : Operation α) : Prop :=
  ∀ job, Ends x job (fun _ job' => Wrote output job.files job'.files)
    fun job' => Failed fresh job.files job'.files

theorem stays_ofExcept (e : Except Failure α) : Stays (ofExcept e) := by
  intro job
  cases e <;> rfl

theorem stays_get : Stays (get : Operation Job) := fun _ => rfl

theorem stays_pure (a : α) : Stays (pure a : Operation α) := fun _ => rfl

theorem passes_note (change : Account → Account) : Passes (note change) := fun _ => rfl

theorem passes_modify {change : Job → Job} (h : ∀ job, (change job).files = job.files) :
    Passes (modify change : Operation PUnit) := h

theorem Passes.stays (hx : Passes x) : Stays x :=
  fun job => (hx job).mono (fun _ _ h => h) fun _ h => h.elim

section

variable {f : α → Operation β} {rest : PUnit → Operation β}

theorem Stays.bind (hx : Stays x) (hf : ∀ a, Stays (f a)) : Stays (x >>= f) := fun job =>
  Ends.bind (hx job) fun a job' hjob => (hf a job').mono (fun _ _ h => h.trans hjob)
    fun _ h => h.trans hjob

theorem Passes.bind (hx : Passes x) (hf : ∀ a, Passes (f a)) : Passes (x >>= f) := fun job =>
  Ends.bind (hx job) fun a job' hjob => (hf a job').mono (fun _ _ h => h.trans hjob) fun _ h => h

theorem Stays.writes_bind (hx : Stays x) (hf : ∀ a, Writes output fresh (f a)) :
    Writes output fresh (x >>= f) := by
  intro job
  refine Ends.bind ((hx job).mono (fun _ _ h => h) fun job' h => ?_) fun a job' hjob => ?_
  · exact .inl (h ▸ .refl job.files)
  · have hend := hf a job'
    rwa [hjob] at hend

theorem Writes.bind_passes (hx : Writes output fresh x) (hf : ∀ a, Passes (f a)) :
    Writes output fresh (x >>= f) := by
  intro job
  refine Ends.bind (hx job) fun a job' hwrote => (hf a job').mono (fun _ _ h => ?_) nofun
  rwa [h]

theorem Writes.guard {c : Prop} [Decidable c] {failure : Failure}
    (h : Writes output fresh (rest ⟨⟩)) :
    Writes output fresh (if c then throw failure >>= rest else rest ⟨⟩) := by
  split
  · intro job
    exact .inl (.refl _)
  · exact h

/-- Goes on with the state changed. -/
theorem ends_modify_bind {change : Job → Job} {f : PUnit → Operation β} {R : β → Job → Prop}
    {E : Job → Prop} (h : Ends (f ⟨⟩) (change job) R E) : Ends (modify change >>= f) job R E := by
  unfold Ends at h ⊢
  rwa [bind_apply, modify_apply]

/-- Goes on with the value of a computation that may fail. -/
theorem ends_ofExcept_bind {e : Except Failure α} {R : β → Job → Prop} {E : Job → Prop}
    (hE : E job) (h : ∀ a, e = .ok a → Ends (f a) job R E) :
    Ends (ofExcept e >>= f) job R E := by
  cases e with
  | ok a => exact h a rfl
  | error failure => exact hE

end

theorem stays_readContainer (path : PathName) : Stays (readContainer path) :=
  stays_get.bind fun _ => (stays_ofExcept _).bind fun _ => stays_pure _

/-! ### Work on a container -/

/-- The file at a place holds what work on it leaves of its contents. -/
theorem work_ends {Q : α → Container → Prop} {E : Container → Prop} {place : List String}
    {session : Session} {body : Action α}
    (hbody : Ends body { session with account := job.account } (fun a s => Q a s.contents)
      fun s => E s.contents) :
    Ends (work place session body) job
      (fun a job' => ∃ after, Q a after ∧ job'.files = job.files.set place (.container after))
      fun job' => ∃ after, E after ∧ job'.files = job.files.set place (.container after) := by
  unfold Ends at hbody ⊢
  unfold work
  cases hresult : body { session with account := job.account } with
  | ok a after =>
      rw [hresult] at hbody
      exact ⟨after.contents, hbody, rfl⟩
  | error failure after =>
      rw [hresult] at hbody
      exact ⟨after.contents, hbody, rfl⟩

theorem work_restores {place : List String} {file : String} {writable : Bool}
    {contents : Container} {body : Action α} (hbody : body.Restores) :
    Ends (work place (.start file writable contents) body) job
      (fun _ job' => ∃ after, job'.files = job.files.set place (.container after))
      fun job' => job'.files = job.files.set place (.container contents) := by
  refine (work_ends (Q := fun _ _ => True) (E := fun after => after = contents) (hbody _)).mono
    (fun _ job' ⟨after, _, h⟩ => ⟨after, h⟩) ?_
  rintro job' ⟨after, rfl, h⟩
  exact h

theorem work_keeps {place : List String} {file : String} {writable : Bool}
    {contents : Container} {body : Action α} (hbody : body.Keeps) :
    Leaves (work place (.start file writable contents) body) job
      fun job' => job'.files = job.files.set place (.container contents) := by
  refine (work_ends (Q := fun _ after => after = contents) (E := fun after => after = contents)
    (hbody _)).mono ?_ ?_
  · rintro a job' ⟨after, rfl, h⟩
    exact h
  · rintro job' ⟨after, rfl, h⟩
    exact h

theorem onExisting_writes {writable : Bool} {body : Action α} (hbody : body.Restores) :
    Writes (some path) none (onExisting path writable body) := by
  intro job
  refine Ends.get_bind (ends_ofExcept_bind (.inl (.refl _)) fun ⟨place, contents⟩ hopen => ?_)
  have hfollow := Workspace.openExisting_eq_ok hopen
  refine (work_restores hbody).mono (fun _ job' hwrote => ?_) fun job' hkept => .inl ?_
  · obtain ⟨after, hafter⟩ := hwrote
    refine .inr ⟨path, rfl, job.files, place, after, .refl _, .inl ⟨_, hfollow, nofun⟩, ?_⟩
    rw [hafter]
    exact .refl _
  · rw [hkept]
    exact Workspace.same_set_found hfollow nofun

/-- Reading a container leaves the files as they were. -/
theorem onExisting_writes_none {writable : Bool} {body : Action α} (hbody : body.Keeps) :
    Writes none none (onExisting path writable body) := by
  intro job
  refine Ends.get_bind (ends_ofExcept_bind (.inl (.refl _)) fun ⟨place, contents⟩ hopen => ?_)
  have hfollow := Workspace.openExisting_eq_ok hopen
  refine (work_keeps hbody).mono (fun _ job' hkept => .inl ?_) fun job' hkept => .inl ?_
  all_goals
    rw [hkept]
    exact Workspace.same_set_found hfollow nofun

theorem exists_of_map_eq_ok {e : Except Failure α} {g : α → β} {b : β}
    (h : e.map g = .ok b) : ∃ a, e = .ok a ∧ g a = b := by
  cases e with
  | ok a => exact ⟨a, rfl, Except.ok.inj h⟩
  | error failure => cases h

theorem onCreated_writes {body : Action α} (hbody : body.Restores) :
    Writes (some path) (some path) (onCreated path body) := by
  intro job
  refine Ends.get_bind ?_
  unfold Workspace.openCreating
  cases hmade : job.files.makeDirectory path.parent with
  | error why => exact .inl (.refl _)
  | ok made =>
      have hgrows := Workspace.makeDirectory_grows hmade
      have hfailed {after : Workspace} (h : (∀ place, made.follow path ≠ .vacant place) ∧
          made.Same after ∨ ∃ place, made.follow path = .vacant place ∧
          (made.set place (.container .empty)).Same after) :
          Failed (some path) job.files after := .inr ⟨path, rfl, made, hmade, h⟩
      unfold Workspace.openAt
      dsimp only
      cases hfollow : made.follow path with
      | found place node =>
          have hother : ∀ other, made.follow path ≠ .vacant other := by simp [hfollow]
          refine ends_modify_bind (ends_ofExcept_bind (hfailed (.inl ⟨hother, .refl made⟩))
            fun opened hopened => ?_)
          obtain ⟨contents, hcontents, rfl⟩ := exists_of_map_eq_ok hopened
          obtain rfl := Workspace.containerOf_eq_ok hcontents
          refine (work_restores hbody).mono (fun _ job' hwrote => ?_) fun job' hkept => ?_
          · obtain ⟨after, hafter⟩ := hwrote
            refine .inr ⟨path, rfl, made, place, after, hgrows, .inl ⟨_, hfollow, nofun⟩, ?_⟩
            rw [hafter]
            exact .refl _
          · rw [hkept]
            exact hfailed (.inl ⟨hother, Workspace.same_set_found hfollow nofun⟩)
      | vacant place =>
          have hplace := Workspace.ne_nil_of_vacant hfollow
          refine ends_modify_bind (ends_ofExcept_bind (hfailed (.inr ⟨place, hfollow, .refl _⟩))
            fun opened hopened => ?_)
          obtain rfl := Except.ok.inj hopened
          refine (work_restores hbody).mono (fun _ job' hwrote => ?_) fun job' hkept => ?_
          · obtain ⟨after, hafter⟩ := hwrote
            refine .inr ⟨path, rfl, made, place, after, hgrows, .inr hfollow, ?_⟩
            rw [hafter]
            exact Workspace.same_set_set hplace
          · rw [hkept]
            exact hfailed (.inr ⟨place, hfollow, Workspace.same_set_set hplace⟩)
      | _ =>
          have hother : ∀ other, made.follow path ≠ .vacant other := by simp [hfollow]
          exact ends_modify_bind (ends_ofExcept_bind (hfailed (.inl ⟨hother, .refl made⟩)) nofun)

end Operation

end TileAtlas
