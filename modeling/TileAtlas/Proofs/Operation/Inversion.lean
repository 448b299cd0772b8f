import TileAtlas.Proofs.Container.Inversion
import TileAtlas.Proofs.Operation.Success

/-!
# Operations that have succeeded

What must have happened for an operation to succeed: it has read what it needed, and the work on
the container that it writes to has ended with a value.
-/

namespace TileAtlas

/-- Whether a path name that is opened for writing leads to a container once the directories along
it have been made: to one that is there, or to a vacant place, where an empty one is made. -/
structure Workspace.Opens (w made : Workspace) (path : PathName) (place : List String)
    (contents : Container) : Prop where
  makes : w.makeDirectory path.parent = .ok made
  follow : made.follow path = .found place (.container contents) ∨
    made.follow path = .vacant place ∧ contents = .empty

namespace Workspace.Opens

variable {w made : Workspace} {path : PathName} {place : List String} {contents : Container}

theorem reached (h : w.Opens made path place contents) :
    (∃ node, made.follow path = .found place node ∧ node ≠ .directory) ∨
      made.follow path = .vacant place :=
  h.follow.imp (fun hfound => ⟨.container contents, hfound, Node.container_ne_directory _⟩) And.left

theorem place_ne_nil (h : w.Opens made path place contents) : place ≠ [] := by
  rcases h.reached with ⟨_, hfound, hnode⟩ | hvacant
  · exact ne_nil_of_found hfound hnode
  · exact ne_nil_of_vacant hvacant

theorem grows (h : w.Opens made path place contents) : w.Grows made :=
  makeDirectory_grows h.makes

/-- What is written to the container is found under its path name. -/
theorem follow_of_same (h : w.Opens made path place contents) {files : Workspace}
    {after : Container} (hsame : (made.set place (.container after)).Same files) :
    files.follow path = .found place (.container after) :=
  (hsame.follow_eq path).trans (follow_set _ h.reached)

end Workspace.Opens

namespace Operation

variable {α : Type} {a : α} {job job' : Job} {path : PathName}

theorem ofExcept_bind_eq_ok {β : Type} {b : β} {e : Except Failure α} {f : α → Operation β} :
    (ofExcept e >>= f) job = .ok b job' ↔ ∃ a, e = .ok a ∧ f a job = .ok b job' := by
  cases e with
  | ok a => exact ⟨fun h => ⟨a, rfl, h⟩, fun ⟨_, he, h⟩ => by cases he; exact h⟩
  | error failure => exact ⟨nofun, fun ⟨_, he, _⟩ => nomatch he⟩

theorem readContainer_bind_eq_ok {β : Type} {b : β} {f : Container → Operation β} :
    (readContainer path >>= f) job = .ok b job' ↔ ∃ place contents,
      job.files.follow path = .found place (.container contents) ∧ f contents job = .ok b job' := by
  constructor
  · intro h
    unfold readContainer at h
    rw [bind_assoc, get_bind_eq_ok, bind_assoc, ofExcept_bind_eq_ok] at h
    obtain ⟨⟨place, contents⟩, hopen, h⟩ := h
    exact ⟨place, contents, Workspace.openExisting_eq_ok hopen, h⟩
  · rintro ⟨place, contents, hfollow, h⟩
    obtain ⟨_, _, hread, rfl, rfl⟩ : Yields (readContainer path) job _ := readContainer_spec hfollow
    exact bind_eq_ok.2 ⟨_, _, hread, h⟩

theorem work_eq_ok {place : List String} {session : Session} {body : Action α}
    (h : work place session body job = .ok a job') :
    ∃ after, body { session with account := job.account } = .ok a after ∧
      job' = closed place job after := by
  unfold work at h
  cases hrun : body { session with account := job.account } with
  | ok b after =>
      simp only [hrun] at h
      cases h
      exact ⟨after, rfl, rfl⟩
  | error failure after =>
      simp only [hrun] at h
      cases h

theorem onExisting_eq_ok {writable : Bool} {body : Action α}
    (h : onExisting path writable body job = .ok a job') :
    ∃ place contents after, job.files.follow path = .found place (.container contents) ∧
      body { Session.start path.text writable contents with account := job.account } =
        .ok a after ∧ job' = closed place job after := by
  unfold onExisting at h
  rw [get_bind_eq_ok, ofExcept_bind_eq_ok] at h
  obtain ⟨⟨place, contents⟩, hopen, h⟩ := h
  obtain ⟨after, hrun, rfl⟩ := work_eq_ok h
  exact ⟨place, contents, after, Workspace.openExisting_eq_ok hopen, hrun, rfl⟩

theorem onCreated_eq_ok {body : Action α} (h : onCreated path body job = .ok a job') :
    ∃ made place contents after, job.files.Opens made path place contents ∧
      body { Session.start path.text true contents with account := job.account } = .ok a after ∧
      (made.set place (.container after.contents)).Same job'.files ∧
      job'.account = after.account := by
  unfold onCreated at h
  rw [get_bind_eq_ok] at h
  cases hmade : job.files.makeDirectory path.parent with
  | error why =>
      simp only [Workspace.openCreating, hmade] at h
      cases h
  | ok made =>
      simp only [Workspace.openCreating, hmade, Workspace.openAt] at h
      cases hfollow : made.follow path with
      | found place node =>
          simp only [hfollow, modify_bind_eq_ok, ofExcept_bind_eq_ok] at h
          obtain ⟨⟨other, contents⟩, hopen, h⟩ := h
          obtain ⟨c, hcontainer, heq⟩ := exists_of_map_eq_ok hopen
          obtain ⟨rfl, rfl⟩ := Prod.mk.inj heq
          obtain rfl := Workspace.containerOf_eq_ok hcontainer
          obtain ⟨after, hrun, rfl⟩ := work_eq_ok h
          exact ⟨made, place, c, after, ⟨hmade, .inl hfollow⟩, hrun, .refl _, rfl⟩
      | vacant place =>
          simp only [hfollow, modify_bind_eq_ok, ofExcept_bind_eq_ok] at h
          obtain ⟨_, hopen, h⟩ := h
          cases hopen
          obtain ⟨after, hrun, rfl⟩ := work_eq_ok h
          exact ⟨made, place, .empty, after, ⟨hmade, .inr ⟨hfollow, rfl⟩⟩, hrun,
            Workspace.same_set_set (Workspace.ne_nil_of_vacant hfollow), rfl⟩
      | _ =>
          simp only [hfollow] at h
          cases h

end Operation

/-- An operation succeeds only if its work ends with a value, and then the result tells of it. -/
theorem runOperation_succeeded {operation : String} {created : Option PathName}
    {body : Operation Unit} {files : Workspace}
    (h : (runOperation operation created body files).succeeded = true) :
    ∃ job, body (.start files) = .ok () job ∧ runOperation operation created body files =
      ⟨job.files, job.notices, .ok ⟨operation, none, job.account, job.details⟩⟩ := by
  unfold runOperation at h ⊢
  cases hrun : body (.start files) with
  | ok a job => exact ⟨job, rfl, rfl⟩
  | error failure job =>
      rw [hrun] at h
      dsimp only at h
      split at h
      · cases (not_succeeded_of_failureResult rfl).symm.trans h
      · cases h

/-- After an operation that makes a file has failed, no file is left at its path name. -/
theorem not_file_of_failed {operation : String} {path : PathName} {body : Operation Unit}
    {files : Workspace}
    (h : (runOperation operation (some path) body files).succeeded = false) (place : List String)
    (node : Node)
    (hfollow : (runOperation operation (some path) body files).files.follow path =
      .found place node) : node = .directory := by
  unfold runOperation at h hfollow
  cases hrun : body (.start files) with
  | ok a job =>
      rw [hrun] at h
      cases h
  | error failure job =>
      simp only [hrun, removeCreated] at hfollow
      cases hdiscard : job.files.discard path with
      | ok kept =>
          rw [hdiscard] at hfollow
          exact absurd hfollow (Workspace.not_found_of_discard hdiscard place node)
      | error why =>
          rw [hdiscard] at hfollow
          rcases Workspace.discard_cases job.files path with
            ⟨hok, -⟩ | ⟨directory, hfound, -⟩ | ⟨_, _, -, -, hok⟩
          · cases hdiscard.symm.trans hok
          · exact (Workspace.Reached.found.inj (hfollow.symm.trans hfound)).2
          · cases hdiscard.symm.trans hok

end TileAtlas
