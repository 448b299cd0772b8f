import TileAtlas.Operation.Apply
import TileAtlas.Operation.Copy
import TileAtlas.Operation.Diff
import TileAtlas.Operation.Validate
import TileAtlas.Proofs.Operation.Writes

/-!
# What an operation does to the files

An operation that succeeds writes to its output only.  An operation that fails leaves every file
as it was and removes the file that it has created, with one exception.  An output may be hidden:
its path name leads nowhere, but once the directories along it have been made it leads to a file
that has been there all the time.  That file is taken for the one that the operation has created,
and it is removed if the operation fails after making the directories.
-/

namespace TileAtlas

/-! ### The operations -/

namespace Copy

theorem body_writes (options : CopyOptions) (batch : Int) (source destination : PathName) :
    Operation.Writes (some destination) (some destination)
      (body options batch source destination) := by
  refine Operation.stays_get.writes_bind fun job => ?_
  refine Operation.Writes.guard ?_
  refine (Operation.stays_readContainer source).writes_bind fun contents => ?_
  apply Operation.onCreated_writes
  exact (Action.keeps_ofExcept _).restores_bind fun _ => Action.transaction_restores _

end Copy

namespace Diff

theorem body_writes (differ : Differ) (patchType : PatchType) (batch : Int)
    (base target patch : PathName) :
    Operation.Writes (some patch) (some patch)
      (body differ patchType batch base target patch) := by
  refine Operation.stays_get.writes_bind fun job => ?_
  refine Operation.Writes.guard ?_
  refine (Operation.stays_readContainer base).writes_bind fun baseContents => ?_
  refine (Operation.stays_readContainer target).writes_bind fun targetContents => ?_
  refine (Operation.stays_ofExcept _).writes_bind fun baseShape => ?_
  refine (Operation.stays_ofExcept _).writes_bind fun targetShape => ?_
  refine (Operation.stays_ofExcept _).writes_bind fun before => ?_
  refine (Operation.stays_ofExcept _).writes_bind fun after => ?_
  refine (Operation.stays_ofExcept _).writes_bind fun baseMetadata => ?_
  refine (Operation.stays_ofExcept _).writes_bind fun targetMetadata => ?_
  refine (Operation.stays_ofExcept _).writes_bind fun changes => ?_
  refine (Operation.onCreated_writes (Action.transaction_restores _)).bind_passes fun _ => ?_
  exact (Operation.passes_note _).bind fun _ => Operation.passes_modify fun _ => rfl

end Diff

namespace ApplyPatch

theorem inPlace_writes (delta : DeltaSet) (differ : Differ) (policy : MergePolicy) (batch : Int)
    (base : PathName) : Operation.Writes (some base) none
      (inPlace delta differ policy batch base) := by
  apply Operation.onExisting_writes
  exact (Tileset.keeps_openIn batch).restores_bind fun _ => Action.transaction_restores _

theorem intoCopy_writes (delta : DeltaSet) (differ : Differ) (policy : MergePolicy) (batch : Int)
    (base patch destination : PathName) :
    Operation.Writes (some destination) (some destination)
      (intoCopy delta differ policy batch base patch destination) := by
  refine Operation.stays_get.writes_bind fun job => ?_
  refine Operation.Writes.guard (Operation.Writes.guard ?_)
  refine (Operation.stays_readContainer base).writes_bind fun contents => ?_
  apply Operation.onCreated_writes
  exact (Action.keeps_ofExcept _).restores_bind fun _ => Action.transaction_restores _

theorem body_writes (differ : Differ) (policy : MergePolicy) (batch : Int) (base patch : PathName)
    (destination : Option PathName) :
    Operation.Writes (some (destination.getD base)) destination
      (body differ policy batch base patch destination) := by
  refine (Operation.stays_readContainer patch).writes_bind fun contents => ?_
  refine (Operation.stays_ofExcept _).writes_bind fun _ => ?_
  refine (Operation.stays_ofExcept _).writes_bind fun delta => ?_
  refine (Operation.passes_note _).stays.writes_bind fun _ => ?_
  cases destination with
  | none =>
      exact (inPlace_writes delta differ policy batch base).bind_passes fun _ =>
        Operation.passes_note _
  | some destination =>
      exact (intoCopy_writes delta differ policy batch base patch destination).bind_passes
        fun _ => Operation.passes_note _

end ApplyPatch

namespace Validate

theorem body_writes (integrity : IntegrityCheck) (mode : AggHashMode) (batch : Int)
    (path : PathName) :
    Operation.Writes (if mode = .update then some path else none) none
      (body integrity mode batch path) := by
  refine Operation.Writes.bind_passes ?_ fun _ =>
    (Operation.passes_note _).bind fun _ => Operation.passes_modify fun _ => rfl
  by_cases hmode : mode = .update
  · simp only [hmode, if_true]
    apply Operation.onExisting_writes
    exact (Tileset.keeps_openIn batch).restores_bind fun _ => Action.transaction_restores _
  · simp only [hmode, if_false]
    apply Operation.onExisting_writes_none
    exact (Tileset.keeps_openIn batch).bind fun t => Tileset.keeps_validate t integrity hmode

end Validate

/-! ### After success and after failure -/

/-- Whether a path name that leads nowhere leads to a file that is there already once the
directories along it have been made. -/
def Workspace.Hides (w : Workspace) (path : PathName) (place : List String) : Prop :=
  w.contains path = false ∧ ∃ made node, w.makeDirectory path.parent = .ok made ∧
    made.follow path = .found place node ∧ node ≠ .directory

theorem Workspace.Hides.follow {w made : Workspace} {path : PathName} {place : List String}
    (h : w.Hides path place) (hmade : w.makeDirectory path.parent = .ok made) :
    ∃ node, made.follow path = .found place node ∧ node ≠ .directory := by
  obtain ⟨-, _, node, hmade', hfollow, hnode⟩ := h
  obtain rfl := Except.ok.inj (hmade.symm.trans hmade')
  exact ⟨node, hfollow, hnode⟩

/-- A hidden file is there. -/
theorem Workspace.Hides.isSome {w : Workspace} {path : PathName} {place : List String}
    (h : w.Hides path place) : (w.node? place).isSome := by
  obtain ⟨-, made, node, hmade, hfollow, hnode⟩ := h
  have hfound := Workspace.node?_of_found hfollow
  rcases (Workspace.makeDirectory_grows hmade).gained place node hfound with hplace | hdirectory
  · rw [hplace]
    rfl
  · exact absurd hdirectory hnode

namespace Operation

variable {output fresh : Option PathName} {files after : Workspace}

/-- The files after a failure: nothing is gone and nothing but directories is new, or a file that
was hidden is gone.  With a hidden file the former means that nothing has happened at all. -/
def Undone (fresh : Option PathName) (files after : Workspace) : Prop :=
  (files.Grows after ∧ ∀ path ∈ fresh, ∀ place, files.Hides path place → files.Same after) ∨
    ∃ path ∈ fresh, ∃ place, files.Hides path place ∧ (files.node? place).isSome ∧
      after.node? place = none ∧ ∀ other, other ≠ place → files.GrowsAt after other

theorem Wrote.growsAt (h : Wrote output files after) {place : List String}
    (hplace : ∀ path ∈ output, ∀ node, after.follow path ≠ .found place node) :
    files.GrowsAt after place := by
  rcases h with hsame | ⟨path, hpath, made, written, contents, hgrows, hfollow, hsame⟩
  · exact hsame.grows.at place
  · have hreached := Workspace.follow_set (.container contents) hfollow
    have hne : place ≠ written := by
      rintro rfl
      exact hplace path hpath _ ((hsame.follow_eq path).trans hreached)
    have hwritten : written ≠ [] := by
      rcases hfollow with ⟨node, hfound, hnode⟩ | hvacant
      · exact Workspace.ne_nil_of_found hfound hnode
      · exact Workspace.ne_nil_of_vacant hvacant
    have hnode : after.node? place = made.node? place := by
      rw [hsame, Workspace.node?_set hwritten, if_neg hne]
    exact (hgrows.at place).congr hnode

theorem Failed.grows (hcontains : ∀ path ∈ fresh, files.contains path = true)
    (h : Failed fresh files after) : files.Grows after := by
  rcases h with hsame | ⟨path, hpath, made, hmade, ⟨-, hsame⟩ | ⟨place, hvacant, -⟩⟩
  · exact hsame.grows
  · exact (Workspace.makeDirectory_grows hmade).trans hsame.grows
  · obtain ⟨other, node, hfound⟩ := Workspace.contains_eq_true.1 (hcontains path hpath)
    rw [Workspace.follow_of_kept (Workspace.makeDirectory_grows hmade).kept hfound] at hvacant
    cases hvacant

/-- What is removed after a failure is a file that the operation has begun, or one that was
hidden. -/
theorem Failed.discard {path : PathName} (hcontains : files.contains path = false)
    (h : Failed (some path) files after) :
    match after.discard path with
    | .ok kept => Undone (some path) files kept
    | .error _ => Undone (some path) files after := by
  rcases h with hsame | ⟨_, hpath, made, hmade, ⟨hnot, hsame⟩ | ⟨place, hvacant, hsame⟩⟩
  · rw [Workspace.discard_of_not_contains ((hsame.contains_eq path).trans hcontains)]
    exact .inl ⟨hsame.grows, fun _ _ _ _ => hsame⟩
  · obtain rfl := Option.some.inj hpath
    have hgrows := (Workspace.makeDirectory_grows hmade).trans hsame.grows
    have hfollow := hsame.follow_eq path
    rcases Workspace.discard_cases after path with
      ⟨hdiscard, hnone⟩ | ⟨place, hfound, hdiscard⟩ | ⟨place, node, hfound, hnode, hdiscard⟩
    · rw [hdiscard]
      refine .inl ⟨hgrows, fun other hother place hhides => ?_⟩
      obtain rfl := Option.some.inj hother
      obtain ⟨node, hreached, -⟩ := hhides.follow hmade
      exact absurd (hfollow.trans hreached) (hnone place node)
    · rw [hdiscard]
      refine .inl ⟨hgrows, fun other hother place' hhides => ?_⟩
      obtain rfl := Option.some.inj hother
      obtain ⟨node, hreached, hnode⟩ := hhides.follow hmade
      rw [← hfollow, hfound] at hreached
      exact absurd (Workspace.Reached.found.inj hreached).2.symm hnode
    · rw [hdiscard]
      have hhides : files.Hides path place :=
        ⟨hcontains, made, node, hmade, hfollow ▸ hfound, hnode⟩
      have hplace := Workspace.ne_nil_of_found hfound hnode
      refine .inr ⟨path, rfl, place, hhides, hhides.isSome, ?_, fun other hother => ?_⟩
      · rw [Workspace.node?_remove hplace, if_pos rfl]
      · exact (hgrows.at other).congr (by rw [Workspace.node?_remove hplace, if_neg hother])
  · obtain rfl := Option.some.inj hpath
    obtain ⟨kept, hdiscard, hkept⟩ := Workspace.discard_of_vacant hvacant hsame
    have hgrows := (Workspace.makeDirectory_grows hmade).trans hkept.grows
    rw [hdiscard]
    refine .inl ⟨hgrows, fun other hother place' hhides => ?_⟩
    obtain rfl := Option.some.inj hother
    obtain ⟨node, hreached, -⟩ := hhides.follow hmade
    rw [hvacant] at hreached
    cases hreached

theorem Failed.undone (h : Failed fresh files after) :
    match removeCreated (fresh.filter fun path => !files.contains path) after with
    | .ok kept => Undone fresh files kept
    | .error _ => Undone fresh files after := by
  cases fresh with
  | none =>
      have hsame : files.Same after := h.resolve_right nofun
      exact .inl ⟨hsame.grows, nofun⟩
  | some path =>
      cases hcontains : files.contains path with
      | true =>
          simp only [Option.filter_some, hcontains, Bool.not_true, Bool.false_eq_true, if_false,
            removeCreated]
          refine .inl ⟨h.grows (fun _ hpath => Option.some.inj hpath ▸ hcontains), ?_⟩
          rintro _ hpath place ⟨hnot, -⟩
          obtain rfl := Option.some.inj hpath
          simp [hcontains] at hnot
      | false =>
          simp only [Option.filter_some, hcontains, Bool.not_false, if_true, removeCreated]
          exact h.discard hcontains

end Operation

namespace Outcome

/-- Whether the operation has ended with a result that says so. -/
def succeeded (o : Outcome) : Bool :=
  match o.result with
  | .ok r => r.ok
  | .error _ => false

end Outcome

theorem failureResult_ok {operation : String} {failure : Failure} {account : Account}
    {r : OperationResult} (h : failureResult operation failure account = .ok r) :
    r.ok = false := by
  unfold failureResult at h
  split at h
  · obtain rfl := Except.ok.inj h
    rfl
  · cases h

theorem not_succeeded_of_failureResult {outcome : Outcome} {operation : String} {failure : Failure}
    {account : Account} (h : outcome.result = failureResult operation failure account) :
    outcome.succeeded = false := by
  unfold Outcome.succeeded
  rw [h]
  cases hreported : failureResult operation failure account with
  | ok r => exact failureResult_ok hreported
  | error _ => rfl

theorem runOperation_frame {output fresh : Option PathName} {body : Operation Unit}
    (hbody : Operation.Writes output fresh body) (operation : String) (files : Workspace) :
    let outcome :=
      runOperation operation (fresh.filter fun path => !files.contains path) body files
    (outcome.succeeded = true → Operation.Wrote output files outcome.files) ∧
      (outcome.succeeded = false → Operation.Undone fresh files outcome.files) := by
  have hends := hbody (.start files)
  unfold Ends at hends
  unfold runOperation
  cases hrun : body (.start files) with
  | ok a job =>
      rw [hrun] at hends
      exact ⟨fun _ => hends, nofun⟩
  | error failure job =>
      rw [hrun] at hends
      have hfailed : Operation.Failed fresh files job.files := hends
      have hundone := hfailed.undone
      dsimp only
      cases hremove : removeCreated (fresh.filter fun path => !files.contains path) job.files with
      | ok kept =>
          rw [hremove] at hundone
          refine ⟨fun hsucceeded => ?_, fun _ => hundone⟩
          cases (not_succeeded_of_failureResult rfl).symm.trans hsucceeded
      | error why =>
          rw [hremove] at hundone
          exact ⟨nofun, fun _ => hundone⟩

theorem filter_not_contains (files : Workspace) (path : PathName) :
    (some path).filter (fun path => !files.contains path) =
      if files.contains path then none else some path := by
  cases hcontains : files.contains path <;> simp [hcontains]

/-! ### Every call -/

/-- A call of an operation. -/
inductive Call
  | copy (options : CopyOptions) (batch : Int) (source destination : PathName)
  | diff (differ : Differ) (patchType : PatchType) (batch : Int) (base target patch : PathName)
  | applyPatch (differ : Differ) (policy : MergePolicy) (batch : Int) (base patch : PathName)
    (destination : Option PathName)
  | validate (integrity : IntegrityCheck) (mode : AggHashMode) (batch : Int) (path : PathName)

namespace Call

/-- Performs a call. -/
def run : Call → Workspace → Outcome
  | copy options batch source destination => TileAtlas.copy options batch source destination
  | diff differ patchType batch base target patch =>
    TileAtlas.diff differ patchType batch base target patch
  | applyPatch differ policy batch base patch destination =>
    TileAtlas.applyPatch differ policy batch base patch destination
  | validate integrity mode batch path => TileAtlas.validate integrity mode batch path

/-- The file that a call writes to. -/
def output : Call → Option PathName
  | copy _ _ _ destination => some destination
  | diff _ _ _ _ _ patch => some patch
  | applyPatch _ _ _ base _ destination => some (destination.getD base)
  | validate _ mode _ path => if mode = .update then some path else none

/-- The file that a call makes if it is not there. -/
def fresh : Call → Option PathName
  | copy _ _ _ destination => some destination
  | diff _ _ _ _ _ patch => some patch
  | applyPatch _ _ _ _ _ destination => destination
  | validate .. => none

theorem run_ends (call : Call) (files : Workspace) :
    ((call.run files).succeeded = true → Operation.Wrote call.output files (call.run files).files) ∧
      ((call.run files).succeeded = false →
        Operation.Undone call.fresh files (call.run files).files) := by
  cases call with
  | copy options batch source destination =>
      have h := runOperation_frame (Copy.body_writes options batch source destination) "copy" files
      rwa [filter_not_contains] at h
  | diff differ patchType batch base target patch =>
      have h := runOperation_frame (Diff.body_writes differ patchType batch base target patch)
        "diff" files
      rwa [filter_not_contains] at h
  | applyPatch differ policy batch base patch destination =>
      exact runOperation_frame (ApplyPatch.body_writes differ policy batch base patch destination)
        "apply-patch" files
  | validate integrity mode batch path =>
      exact runOperation_frame (Validate.body_writes integrity mode batch path) "validate" files

/-- A call that fails without making a file leaves every file as it was. -/
theorem follow_of_failed {call : Call} {files : Workspace}
    (hfailed : (call.run files).succeeded = false)
    (hfresh : ∀ path ∈ call.fresh, files.contains path = true) {path : PathName}
    {place : List String} {node : Node} (hfollow : files.follow path = .found place node) :
    (call.run files).files.follow path = .found place node := by
  rcases (run_ends call files).2 hfailed with ⟨hgrows, -⟩ | ⟨fresh, hmem, _, ⟨hnot, -⟩, -⟩
  · exact Workspace.follow_of_kept hgrows.kept hfollow
  · cases (hfresh fresh hmem).symm.trans hnot

/-- A call that succeeds changes nothing but its output, wherever that is then, and makes no file
besides.  After a call that fails nothing is gone and nothing but directories is new, unless the
path name of the file that it makes hides another file: then either nothing has happened at all,
or that file is gone. -/
theorem run_frame (call : Call) (files : Workspace) :
    ((call.run files).succeeded = true → ∀ place,
      (∀ path ∈ call.output, ∀ node, (call.run files).files.follow path ≠ .found place node) →
        files.GrowsAt (call.run files).files place) ∧
    ((call.run files).succeeded = false →
      (files.Grows (call.run files).files ∧
        ∀ path ∈ call.fresh, ∀ place, files.Hides path place →
          files.Same (call.run files).files) ∨
      ∃ path ∈ call.fresh, ∃ place, files.Hides path place ∧ (files.node? place).isSome ∧
        (call.run files).files.node? place = none ∧
        ∀ other, other ≠ place → files.GrowsAt (call.run files).files other) :=
  ⟨fun h _ hplace => ((run_ends call files).1 h).growsAt hplace, (run_ends call files).2⟩

end Call

/-- A copy whose source holds no tileset fails only after it has made the directories along its
destination, and a file that was hidden there is gone. -/
theorem copy_loses_hidden :
    let files : Workspace := ⟨[(["a"], .plain ⟨#[1]⟩), (["s"], .container .empty)]⟩
    let call : Call := .copy ⟨⟨none, none, none, none⟩, .all, .override, none⟩ 1000 ⟨["s"]⟩
      ⟨["x", "..", "a"]⟩
    (call.run files).succeeded = false ∧ files.node? ["a"] = some (.plain ⟨#[1]⟩) ∧
      (call.run files).files.node? ["a"] = none ∧
      ∀ other, other ≠ ["a"] → files.GrowsAt (call.run files).files other := by
  intro files call
  have hfails : (call.run files).succeeded = false := by decide
  have hlost : (call.run files).files.node? ["a"] = none := by decide
  refine ⟨hfails, rfl, hlost, ?_⟩
  rcases (Call.run_frame call files).2 hfails with
    ⟨hgrows, -⟩ | ⟨path, hpath, place, hhides, -, hrest⟩
  · have hkept := hgrows.kept ["a"] _ rfl
    rw [hlost] at hkept
    cases hkept
  · obtain rfl := Option.some.inj hpath
    have hmade : files.makeDirectory ⟨["x", ".."]⟩ = .ok (files.set ["x"] .directory) := by decide
    obtain ⟨node, hfollow, -⟩ := hhides.follow hmade
    have hreached : (files.set ["x"] .directory).follow ⟨["x", "..", "a"]⟩ =
        .found ["a"] (.plain ⟨#[1]⟩) := by decide
    obtain ⟨rfl, -⟩ := Workspace.Reached.found.inj (hreached.symm.trans hfollow)
    exact hrest.2

end TileAtlas
