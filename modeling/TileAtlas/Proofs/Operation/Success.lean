import TileAtlas.Proofs.Operation.Frame

/-!
# Operations that succeed

What the steps of an operation yield where they do not fail: a container is read, worked on where
it is, or made at a vacant place and worked on.
-/

namespace TileAtlas

namespace Action

variable {α : Type} {body : Action α} {s : Session}

theorem transaction_yields {Q : α → Session → Prop} (hclosed : s.inTransaction = false)
    (hbody : Yields body { s with inTransaction := true } Q) :
    Yields (transaction body) s fun a s' =>
      ∃ after, Q a after ∧ s' = { after with inTransaction := false } := by
  obtain ⟨a, after, hrun, hQ⟩ := hbody
  refine ⟨a, { after with inTransaction := false }, ?_, after, hQ, rfl⟩
  simp only [transaction, hclosed, Bool.false_eq_true, if_false, hrun]

/-- A transaction yields what its body yields. -/
theorem transaction_spec {Q : α → Container → Prop} (hclosed : s.inTransaction = false)
    (hbody : Yields body { s with inTransaction := true } fun a s' => Q a s'.contents) :
    Yields (transaction body) s fun a s' => Q a s'.contents := by
  refine (transaction_yields hclosed hbody).mono ?_
  rintro a _ ⟨after, hQ, rfl⟩
  exact hQ

theorem transaction_failsWith {failure : Failure} (hclosed : s.inTransaction = false)
    (hbody : FailsWith body { s with inTransaction := true } failure) :
    FailsWith (transaction body) s failure := by
  obtain ⟨after, hrun⟩ := hbody
  refine ⟨{ after with inTransaction := false, contents := s.contents }, ?_⟩
  simp only [transaction, hclosed, Bool.false_eq_true, if_false, hrun]

end Action

namespace Operation

variable {α : Type} {job : Job} {path : PathName} {place : List String} {body : Action α}
  {Q : α → Container → Prop}

theorem get_spec (job : Job) :
    Yields (get : Operation Job) job fun a job' => a = job ∧ job' = job :=
  .intro rfl ⟨rfl, rfl⟩

theorem guard_spec {β : Type} {c : Prop} [Decidable c] {failure : Failure}
    {rest : PUnit → Operation β} {R : β → Job → Prop} (hc : ¬ c) (h : Yields (rest ⟨⟩) job R) :
    Yields (if c then throw failure >>= rest else rest ⟨⟩) job R := by
  rwa [if_neg hc]

theorem ofExcept_spec {e : Except Failure α} {a : α} (h : e = .ok a) (job : Job) :
    Yields (ofExcept e) job fun b job' => b = a ∧ job' = job := by
  rw [h]
  exact .intro rfl ⟨rfl, rfl⟩

theorem openExisting_of_follow {files : Workspace} {contents : Container}
    (hfollow : files.follow path = .found place (.container contents)) :
    files.openExisting path = .ok (place, contents) := by
  unfold Workspace.openExisting
  rw [hfollow]
  rfl

theorem readContainer_spec {contents : Container}
    (hfollow : job.files.follow path = .found place (.container contents)) :
    Yields (readContainer path) job fun c job' => c = contents ∧ job' = job := by
  refine (ofExcept_spec (openExisting_of_follow hfollow) job).bind ?_
  rintro _ job' ⟨rfl, rfl⟩
  exact .pure ⟨rfl, rfl⟩

/-- The job after work on an open container that is kept at a place. -/
def closed (place : List String) (job : Job) (after : Session) : Job :=
  { job with
    files := job.files.set place (.container after.contents)
    account := after.account
    notices := job.notices ++ after.notices }

theorem work_yields {session : Session} {R : α → Session → Prop}
    (hbody : Yields body { session with account := job.account } R) :
    Yields (work place session body) job fun a job' =>
      ∃ after, R a after ∧ job' = closed place job after := by
  obtain ⟨a, after, hrun, hR⟩ := hbody
  refine ⟨a, closed place job after, ?_, after, hR, rfl⟩
  simp only [work, hrun]
  rfl

theorem work_failsWith {session : Session} {failure : Failure}
    (hbody : FailsWith body { session with account := job.account } failure) :
    FailsWith (work place session body) job failure := by
  obtain ⟨after, hrun⟩ := hbody
  refine ⟨closed place job after, ?_⟩
  simp only [work, hrun]
  rfl

theorem work_spec {session : Session}
    (hbody : Yields body { session with account := job.account } fun a s => Q a s.contents) :
    Yields (work place session body) job fun a job' => ∃ after, Q a after ∧
      job'.files = job.files.set place (.container after) := by
  refine (work_yields hbody).mono ?_
  rintro a _ ⟨after, hQ, rfl⟩
  exact ⟨after.contents, hQ, rfl⟩

theorem onExisting_spec {writable : Bool} {contents : Container}
    (hfollow : job.files.follow path = .found place (.container contents))
    (hbody : ∀ account, Yields body { Session.start path.text writable contents with account }
      fun a s => Q a s.contents) :
    Yields (onExisting path writable body) job fun a job' => ∃ after, Q a after ∧
      job'.files = job.files.set place (.container after) := by
  refine (ofExcept_spec (openExisting_of_follow hfollow) job).bind ?_
  rintro _ job' ⟨rfl, rfl⟩
  exact work_spec (hbody _)

theorem onCreated_of_open {opened : Workspace} {contents : Container}
    (hopen : job.files.openCreating path = (opened, .ok (place, contents))) (body : Action α) :
    onCreated path body job =
      work place (.start path.text true contents) body { job with files := opened } := by
  simp only [onCreated, bind_apply, get_apply, hopen, modify_apply]
  rfl

theorem onCreated_spec {made : Workspace} (hmade : job.files.makeDirectory path.parent = .ok made)
    (hvacant : made.follow path = .vacant place)
    (hbody : ∀ account, Yields body { Session.start path.text true .empty with account }
      fun a s => Q a s.contents) :
    Yields (onCreated path body) job fun a job' => ∃ after, Q a after ∧
      job'.files = (made.set place (.container .empty)).set place (.container after) := by
  exact .of_run (onCreated_of_open (Workspace.openCreating_of_vacant hmade hvacant) body)
    (work_spec (hbody _))

theorem note_spec {R : Workspace → Prop} (change : Account → Account) (h : R job.files) :
    Yields (note change) job fun _ job' => R job'.files :=
  .intro rfl h

end Operation

theorem runOperation_yields {body : Operation Unit} {files : Workspace} {Q : Job → Prop}
    (hbody : Yields body (.start files) fun _ job => Q job) (operation : String)
    (created : Option PathName) :
    ∃ job, Q job ∧ runOperation operation created body files =
      ⟨job.files, job.notices, .ok ⟨operation, none, job.account, job.details⟩⟩ := by
  obtain ⟨_, job, hrun, hQ⟩ := hbody
  refine ⟨job, hQ, ?_⟩
  simp only [runOperation, hrun]

theorem runOperation_spec {body : Operation Unit} {files : Workspace} {Q : Job → Prop}
    (hbody : Yields body (.start files) fun _ job => Q job) (operation : String)
    (created : Option PathName) :
    (runOperation operation created body files).succeeded = true ∧
      ∃ job, Q job ∧ (runOperation operation created body files).files = job.files := by
  obtain ⟨job, hQ, hrun⟩ := runOperation_yields hbody operation created
  rw [hrun]
  exact ⟨rfl, job, hQ, rfl⟩

/-- An operation that has made no file ends with a fault as its result. -/
theorem runOperation_failsWith {body : Operation Unit} {files : Workspace} {failure : Failure}
    {fault : Fault} (hbody : FailsWith body (.start files) failure)
    (hfault : failure.reported? = some fault) (operation : String) :
    ∃ account, (runOperation operation none body files).result =
      .ok ⟨operation, some fault, account, .none⟩ := by
  obtain ⟨job, hrun⟩ := hbody
  refine ⟨job.account, ?_⟩
  simp only [runOperation, hrun, removeCreated, failureResult, hfault]

end TileAtlas
