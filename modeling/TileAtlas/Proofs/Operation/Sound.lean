import TileAtlas.Proofs.Operation.Made
import Mathlib.Data.Set.Basic

/-!
# Runs of calls

Between calls it is known which files are tilesets of the library.  If the stored hashes of all of
them are right, they are right after every call that writes to none but these or to new files.  A
call that may have changed tiles leaves a tileset that is found valid.
-/

namespace TileAtlas

open Tileset

/-- A tileset whose stored hash has been refreshed is found valid. -/
theorem validate_of_fresh {files : Workspace} {path : PathName} {place : List String}
    {contents : Container} (hfollow : files.follow path = .found place (.container contents))
    (hmade : contents.Made) (hfresh : contents.Fresh) {batch : Int}
    (hbatch : checkBatch batch = .ok ()) (integrity : IntegrityCheck) :
    (validate integrity .verify batch path files).succeeded = true := by
  obtain ⟨layout, rows, h, rfl, hvalid⟩ := hmade.exists_holding
  rw [fresh_containerWith_iff hvalid] at hfresh
  refine (runOperation_spec (Q := fun _ => True) ?_ "validate" none).1
  refine (Operation.onExisting_spec (Q := fun _ _ => True) hfollow fun account => ?_).bind
    fun report job _ => .intro rfl trivial
  have hopen := openIn_containerWith batch
    (s := { Session.start path.text false (layout.containerWith rows h) with account })
    (show _ = layout.containerWith rows h from rfl)
  refine (Yields.intro hopen (Q := fun t s => t = ⟨layout.shape, batch⟩ ∧
    s.contents = layout.containerWith rows h) ⟨rfl, rfl⟩).bind ?_
  rintro _ s ⟨rfl, hcontents⟩
  exact validate_verify (t := ⟨layout.shape, batch⟩) hcontents hvalid hbatch hfresh integrity

/-- A patch is written to a new file or to one with nothing in it. -/
theorem diff_opens {differ : Differ} {patchType : PatchType} {batch : Int}
    {base target patch : PathName} {files : Workspace}
    (h : (diff differ patchType batch base target patch files).succeeded = true) :
    ∃ made place contents, files.Opens made patch place .empty ∧
      (made.set place (.container contents)).Same
        (diff differ patchType batch base target patch files).files := by
  obtain ⟨job, hrun, hout⟩ := runOperation_succeeded h
  have hfiles : (diff differ patchType batch base target patch files).files = job.files :=
    congrArg Outcome.files hout
  rw [hfiles]
  simp only [Diff.body, get_bind_eq_ok, guard_eq_ok, Operation.readContainer_bind_eq_ok,
    Operation.ofExcept_bind_eq_ok] at hrun
  obtain ⟨-, _, _, -, _, _, -, _, -, _, -, _, -, _, -, _, -, _, -, _, -, hrun⟩ := hrun
  obtain ⟨_, written, hcreated, hnote⟩ := bind_eq_ok.1 hrun
  cases hnote
  obtain ⟨made, place, before, session, hopens, hwork, hsame, -⟩ :=
    Operation.onCreated_eq_ok hcreated
  obtain ⟨after, hwrite, rfl⟩ := Action.transaction_eq_ok hwork
  obtain rfl : before = .empty := Container.eq_empty_of_isEmpty (Diff.isEmpty_of_writePatch hwrite)
  exact ⟨made, place, _, hopens, hsame⟩

/-- Whether the tilesets of the library are among the files, and their stored hashes are right. -/
def Workspace.Sound (files : Workspace) (ours : Set (List String)) : Prop :=
  ∀ place ∈ ours, ∃ contents, files.node? place = some (.container contents) ∧
    contents.Made ∧ contents.Sound

namespace Call

/-- The path name at which a call writes a tileset. -/
def target : Call → Option PathName
  | copy _ _ _ destination => some destination
  | diff .. => none
  | applyPatch _ _ _ base _ destination => some (destination.getD base)
  | validate _ mode _ path => if mode = .update then some path else none

/-- The number of rows that a call fetches at once. -/
def batch : Call → Int
  | copy _ batch .. | diff _ _ batch .. | applyPatch _ _ batch .. | validate _ _ batch _ => batch

/-- Whether a call computes the aggregate hash of its target anew. -/
def Refreshes : Call → Prop
  | copy options .. => options.copyType.copiesTiles = true
  | diff .. => False
  | applyPatch .. => True
  | validate _ mode .. => mode = .update

/-- Whether a call writes to a tileset of the library or to a container with nothing in it, if it
writes a tileset. -/
def Suits (call : Call) (files : Workspace) (ours : Set (List String)) : Prop :=
  ∀ path ∈ call.target, ∀ made place before, files.Opens made path place before →
    place ∈ ours ∨ before = .empty

/-- The tilesets of the library after a call: those that are still there, and the one that the call
has written. -/
def owned (call : Call) (files : Workspace) (ours : Set (List String)) : Set (List String) :=
  {place | ∃ contents, (call.run files).files.node? place = some (.container contents) ∧
    (place ∈ ours ∨ (call.run files).succeeded = true ∧ ∃ path ∈ call.target,
      (call.run files).files.follow path = .found place (.container contents))}

variable {call : Call} {files : Workspace} {ours : Set (List String)} {place : List String}

/-- A call that succeeds settles its target.  Without a target it changes nothing, or it writes to a
container with nothing in it. -/
theorem run_settles (h : (call.run files).succeeded = true) :
    (∃ path ∈ call.target, files.Settles path call.batch call.Refreshes (call.run files).files) ∨
      call.target = none ∧ (files.Same (call.run files).files ∨
        ∃ made path place contents, files.Opens made path place .empty ∧
          (made.set place (.container contents)).Same (call.run files).files) := by
  cases call with
  | copy options batch source destination => exact .inl ⟨destination, rfl, copy_settles h⟩
  | diff differ patchType batch base target patch =>
      obtain ⟨made, place, contents, hopens, hsame⟩ := diff_opens h
      exact .inr ⟨rfl, .inr ⟨made, patch, place, contents, hopens, hsame⟩⟩
  | applyPatch differ policy batch base patch destination =>
      exact .inl ⟨_, rfl, applyPatch_settles h⟩
  | validate integrity mode batch path =>
      by_cases hmode : mode = .update
      · subst hmode
        obtain ⟨made, place, before, contents, hopens, hsame, hsettled⟩ := validate_settles h
        refine .inl ⟨path, rfl, made, place, before, contents, hopens, hsame, fun hready => ?_⟩
        have hcontents := hsettled hready
        exact ⟨hcontents.made, hcontents.sound, fun _ => hcontents.fresh trivial,
          fun _ => hcontents.batch trivial⟩
      · refine .inr ⟨if_neg hmode, ?_⟩
        have hwrote := ((validate integrity mode batch path).run_ends files).1 h
        rw [output, if_neg hmode] at hwrote
        exact .inl (hwrote.resolve_right nofun)

theorem ready_of_suits {made : Workspace} {path : PathName} {before : Container}
    (hours : files.Sound ours) (hsuits : call.Suits files ours) (hpath : path ∈ call.target)
    (hopens : files.Opens made path place before) : before.Ready := by
  rcases hsuits path hpath made place before hopens with hplace | hempty
  · obtain ⟨contents, hnode, hmade, hsound⟩ := hours place hplace
    have hkept := hopens.grows.kept place _ hnode
    rcases hopens.follow with hfound | ⟨hvacant, hempty⟩
    · obtain rfl := Node.container.inj
        (Option.some.inj ((Workspace.node?_of_found hfound).symm.trans hkept))
      exact .inr ⟨hmade, hsound⟩
    · exact .inl hempty
  · exact .inl hempty

/-- A call may write to a tileset of the library. -/
theorem suits_of_follow (call : Call) {path : PathName} {contents : Container}
    (hpath : call.target = some path)
    (hfollow : files.follow path = .found place (.container contents))
    (hplace : place ∈ ours) : call.Suits files ours := by
  intro other hother made position before hopens
  obtain rfl := Option.some.inj (hpath.symm.trans hother)
  obtain rfl := Except.ok.inj ((Workspace.opens_of_follow hfollow).makes.symm.trans hopens.makes)
  rcases hopens.follow with hfound | ⟨hvacant, -⟩
  · obtain ⟨rfl, -⟩ := Workspace.follow_container_inj hfollow hfound
    exact .inl hplace
  · cases hfollow.symm.trans hvacant

/-- A tileset of the library is not written to as if nothing were in it. -/
theorem node?_of_opens {made after : Workspace} {path : PathName} {written : List String}
    {contents : Container} (hours : files.Sound ours) (hplace : place ∈ ours)
    (hopens : files.Opens made path written .empty)
    (hsame : (made.set written (.container contents)).Same after) :
    after.node? place = files.node? place := by
  obtain ⟨old, hnode, hmade, -⟩ := hours place hplace
  have hkept := hopens.grows.kept place _ hnode
  have hne : place ≠ written := by
    rintro rfl
    rcases hopens.follow with hfound | ⟨hvacant, -⟩
    · have heq := (Workspace.node?_of_found hfound).symm.trans hkept
      exact hmade.ne_empty (Node.container.inj (Option.some.inj heq)).symm
    · cases (Workspace.node?_of_vacant hvacant).symm.trans hkept
  rw [hsame, Workspace.node?_set hopens.place_ne_nil, if_neg hne, hkept, hnode]

/-- One call leaves the stored hashes right. -/
theorem run_sound (hours : files.Sound ours) (hsuits : call.Suits files ours) :
    (call.run files).files.Sound (call.owned files ours) := by
  rintro place ⟨contents, hnode, hplace⟩
  refine ⟨contents, hnode, ?_⟩
  -- a tileset that is kept is as right as it was
  have hkept (hplace : place ∈ ours)
      (h : ∀ node, files.node? place = some node → (call.run files).files.node? place = some node) :
      contents.Made ∧ contents.Sound := by
    obtain ⟨old, hold, hmade, hsound⟩ := hours place hplace
    obtain rfl := Node.container.inj (Option.some.inj ((h _ hold).symm.trans hnode))
    exact ⟨hmade, hsound⟩
  cases hsucceeded : (call.run files).succeeded with
  | false =>
      have hplace := hplace.resolve_right fun h => by
        rw [hsucceeded] at h
        cases h.1
      rcases (call.run_ends files).2 hsucceeded with ⟨hgrows, -⟩ | ⟨_, -, lost, -, -, hlost, hrest⟩
      · exact hkept hplace (hgrows.kept place)
      · refine hkept hplace (hrest place ?_).1
        rintro rfl
        cases hlost.symm.trans hnode
  | true =>
      rcases run_settles hsucceeded with
        ⟨path, hpath, made, written, before, after, hopens, hsame, hsettled⟩ |
        ⟨hnone, hsame | ⟨made, path, written, after, hopens, hsame⟩⟩
      · have hafter := hsame place
        rw [Workspace.node?_set hopens.place_ne_nil] at hafter
        split at hafter
        next heq =>
          obtain rfl := Node.container.inj (Option.some.inj (hafter.symm.trans hnode))
          have hcontents := hsettled (ready_of_suits hours hsuits hpath hopens)
          exact ⟨hcontents.made, hcontents.sound⟩
        next hne =>
          refine hkept (hplace.resolve_right ?_) fun node h =>
            hafter.trans (hopens.grows.kept place node h)
          rintro ⟨-, other, hother, hfollow⟩
          obtain rfl := Option.mem_unique hpath hother
          have hwritten := hopens.follow_of_same hsame
          exact hne (Workspace.follow_container_inj hfollow hwritten).1
      · refine hkept (hplace.resolve_right ?_) fun node h => (hsame place).trans h
        rintro ⟨-, other, hother, -⟩
        rw [hnone] at hother
        cases hother
      · have hplace : place ∈ ours := hplace.resolve_right fun ⟨_, other, hother, _⟩ => by
          rw [hnone] at hother
          cases hother
        exact hkept hplace fun node h => (node?_of_opens hours hplace hopens hsame).trans h

/-- What a call that has succeeded has written is found valid if the stored hash was refreshed. -/
theorem run_fresh (hours : files.Sound ours) (hsuits : call.Suits files ours)
    (hsucceeded : (call.run files).succeeded = true) (hrefreshes : call.Refreshes) :
    checkBatch call.batch = .ok () ∧ ∃ path ∈ call.target, ∃ place contents,
      (call.run files).files.follow path = .found place (.container contents) ∧
      place ∈ call.owned files ours ∧ contents.Made ∧ contents.Fresh := by
  rcases run_settles hsucceeded with
    ⟨path, hpath, made, place, before, contents, hopens, hsame, hsettled⟩ | ⟨hnone, -⟩
  · have hcontents := hsettled (ready_of_suits hours hsuits hpath hopens)
    have hfollow := hopens.follow_of_same hsame
    refine ⟨hcontents.batch hrefreshes, path, hpath, place, contents, hfollow, ?_, hcontents.made,
      hcontents.fresh hrefreshes⟩
    exact ⟨contents, Workspace.node?_of_found hfollow, .inr ⟨hsucceeded, path, hpath, hfollow⟩⟩
  · cases call with
    | diff => exact hrefreshes.elim
    | validate integrity mode batch path =>
        simp [target, show mode = .update from hrefreshes] at hnone
    | _ => cases hnone

end Call

/-- Calls one after the other, from some files to others, and which of the files are tilesets of the
library. -/
inductive Calls (files : Workspace) (ours : Set (List String)) :
    Workspace → Set (List String) → Prop
  | none : Calls files ours files ours
  | call {files' : Workspace} {ours' : Set (List String)} (call : Call) :
      Calls files ours files' ours' → call.Suits files' ours' →
      Calls files ours (call.run files').files (call.owned files' ours')

/-- However many calls there have been, and whether they have succeeded or failed, the stored hashes
of the tilesets of the library are right.  Where the last call has computed the aggregate hash anew,
it is stored with the tileset, which is found valid. -/
theorem calls_sound {files files' : Workspace} {ours ours' : Set (List String)}
    (hcalls : Calls files ours files' ours') (hours : files.Sound ours) :
    files'.Sound ours' ∧ ∀ call : Call, call.Suits files' ours' →
      (call.run files').succeeded = true → call.Refreshes →
      ∃ path ∈ call.target, ∃ place contents,
        (call.run files').files.follow path = .found place (.container contents) ∧
        place ∈ call.owned files' ours' ∧ contents.Fresh ∧
        ∀ integrity batch, batch = call.batch ∨ -0x80000000 ≤ batch ∧ batch < 0x80000000 →
          (validate integrity .verify batch path (call.run files').files).succeeded = true := by
  have hsound : files'.Sound ours' := by
    induction hcalls with
    | none => exact hours
    | call call _ hsuits ih => exact Call.run_sound ih hsuits
  refine ⟨hsound, fun call hsuits hsucceeded hrefreshes => ?_⟩
  obtain ⟨hbatch, path, hpath, place, contents, hfollow, howned, hmade, hfresh⟩ :=
    Call.run_fresh hsound hsuits hsucceeded hrefreshes
  refine ⟨path, hpath, place, contents, hfollow, howned, hfresh, fun integrity batch hrange => ?_⟩
  refine validate_of_fresh hfollow hmade hfresh ?_ integrity
  rcases hrange with rfl | hrange
  · exact hbatch
  · exact checkBatch_of_range hrange

/-- A tileset that has been copied without its tiles is sound, and fresh once they have been copied
as well. -/
theorem calls_sound_copied :
    let a := Layout.flat.container ⟨[⟨⟨0, 0, 0⟩, some ⟨#[1]⟩⟩], [], [("name", "base")]⟩
    let files : Workspace := ⟨[(["a"], .container a)]⟩
    let copy (copyType : CopyType) : Call :=
      .copy ⟨.all, copyType, .override, some .normalized⟩ 1 ⟨["a"]⟩ ⟨["b"]⟩
    let copied := ((copy .metadata).run files).files
    let outcome := (copy .tiles).run copied
    files.Sound {["a"]} ∧ Calls files {["a"]} copied ((copy .metadata).owned files {["a"]}) ∧
      copied.Sound ((copy .metadata).owned files {["a"]}) ∧ ∃ place contents,
        outcome.files.follow ⟨["b"]⟩ = .found place (.container contents) ∧ contents.Fresh ∧
        (validate .full .verify 1 ⟨["b"]⟩ outcome.files).succeeded = true := by
  intro a files copy copied outcome
  have hours : files.Sound {["a"]} := by
    rintro place rfl
    have hcreated := @Tileset.Made.created _ (.start "a" true .empty) _ .flat 1 rfl rfl rfl
    have hmade : a.Made := ((hcreated.put ⟨0, 0, 0⟩ (some ⟨#[1]⟩)).putMetadata (.text "name")
      (.text "base")).contents
    have hkey : (TileKey.cells ⟨0, 0, 0⟩).all Cell.fits = true := by decide
    have hvalid := ((Holding.valid_empty .flat).put hkey (some ⟨#[1]⟩)).putMetadata "name"
      (some "base")
    refine ⟨a, rfl, hmade, ?_⟩
    show (Layout.container .flat _).Sound
    rw [← Layout.containerWith_metadata]
    refine (sound_containerWith_iff hvalid).2 ?_
    nofun
  have hfirst : (copy .metadata).Suits files {["a"]} := by
    rintro _ ⟨⟩ made place before ⟨hmakes, hfollow⟩
    cases hmakes
    exact .inr (hfollow.resolve_left nofun).2
  have hcalls := Calls.none.call _ hfirst
  have hsucceeded : ((copy .metadata).run files).succeeded = true := by decide +kernel
  have htiles : outcome.succeeded = true := by decide +kernel
  have hpath : (copy .metadata).target = some ⟨["b"]⟩ := rfl
  obtain ⟨_, hother, made, place, before, contents, hopens, hsame, -⟩ :=
    (Call.run_settles hsucceeded).resolve_right fun h => by
      rw [hpath] at h
      cases h.1
  obtain rfl := Option.some.inj (hpath.symm.trans hother)
  have hfollow := hopens.follow_of_same hsame
  have hplace : place ∈ (copy .metadata).owned files {["a"]} :=
    ⟨contents, Workspace.node?_of_found hfollow, .inr ⟨hsucceeded, ⟨["b"]⟩, hpath, hfollow⟩⟩
  obtain ⟨hsound, hfresh⟩ := calls_sound hcalls hours
  have hsecond := (copy .tiles).suits_of_follow hpath hfollow hplace
  obtain ⟨_, hother, place', contents', hfollow', -, hcontents', hvalid⟩ :=
    hfresh (copy .tiles) hsecond htiles rfl
  obtain rfl := Option.some.inj hother
  exact ⟨hours, hcalls, hsound, place', contents', hfollow', hcontents', hvalid .full 1 (.inl rfl)⟩

end TileAtlas
