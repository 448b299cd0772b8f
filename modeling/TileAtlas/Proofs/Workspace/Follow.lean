import TileAtlas.Workspace.Basic
import Mathlib.Tactic.Common

/-!
# Following path names in a changing workspace

Where a path name leads depends on the entries only.  It keeps leading to an entry when directories
are made, and to a file whose contents are replaced; a name that has come to a vacant place leads
to whatever is put there.
-/

namespace TileAtlas

theorem Node.container_ne_directory (contents : Container) : Node.container contents ≠ .directory :=
  nofun

namespace Workspace

variable {w w' : Workspace} {place other : List String} {node : Node} {path : PathName}

/-! ### Entries -/

@[simp] theorem node?_nil (w : Workspace) : w.node? [] = some .directory := rfl

theorem node?_cons (w : Workspace) (name : String) (rest : List String) :
    w.node? (name :: rest) = w.entries.lookup (name :: rest) := rfl

theorem node?_eq_lookup (hplace : place ≠ []) (w : Workspace) :
    w.node? place = w.entries.lookup place := by
  cases place with
  | nil => exact absurd rfl hplace
  | cons name rest => rfl

theorem lookup_map_set (entries : List (List String × Node)) (place other : List String)
    (node : Node) :
    (entries.map fun entry => if entry.1 = place then (place, node) else entry).lookup other =
      if other = place then (entries.lookup other).map fun _ => node else entries.lookup other := by
  induction entries with
  | nil => simp
  | cons entry rest ih =>
      obtain ⟨name, old⟩ := entry
      by_cases hname : name = place
      · by_cases hother : other = place
        · simp [hname, hother]
        · simp [hname, hother, List.lookup_cons, beq_false_of_ne hother, ih]
      · by_cases hother : other = name
        · simp [hname, hother]
        · simp [hname, List.lookup_cons, beq_false_of_ne hother, ih]

theorem node?_set (hplace : place ≠ []) (w : Workspace) (node : Node) (other : List String) :
    (w.set place node).node? other = if other = place then some node else w.node? other := by
  cases other with
  | nil => simp [Ne.symm hplace]
  | cons name rest =>
      unfold set
      split
      next hsome =>
        obtain ⟨old, hold⟩ := Option.isSome_iff_exists.1 hsome
        rw [node?_cons, node?_cons, lookup_map_set]
        by_cases hother : name :: rest = place
        · rw [if_pos hother, if_pos hother, hother, ← node?_eq_lookup hplace, hold]
          rfl
        · rw [if_neg hother, if_neg hother]
      next hnone =>
        have hvacant : w.entries.lookup place = none := by
          rw [← node?_eq_lookup hplace]
          simpa using hnone
        rw [node?_cons, node?_cons, List.lookup_append]
        by_cases hother : name :: rest = place
        · simp [hother, hvacant]
        · simp [hother, List.lookup_cons, beq_false_of_ne hother]

theorem node?_remove (hplace : place ≠ []) (w : Workspace) (other : List String) :
    (w.remove place).node? other = if other = place then none else w.node? other := by
  cases other with
  | nil => simp [Ne.symm hplace]
  | cons name rest =>
      rw [node?_cons, node?_cons, remove]
      generalize name :: rest = other
      induction w.entries with
      | nil => simp
      | cons entry rest ih =>
          obtain ⟨name, old⟩ := entry
          by_cases hname : name = place
          · rw [List.filter_cons_of_neg (by simp [hname]), ih]
            by_cases hother : other = place
            · simp [hother]
            · simp [hname, hother, List.lookup_cons, beq_false_of_ne hother]
          · rw [List.filter_cons_of_pos (by simp [hname]), List.lookup_cons, ih, List.lookup_cons]
            by_cases hother : other = name
            · simp [hother, hname]
            · simp [beq_false_of_ne hother]

/-! ### Workspaces with the same entries -/

/-- Whether two workspaces have the same entry at every place. -/
def Same (w w' : Workspace) : Prop := ∀ place, w'.node? place = w.node? place

theorem Same.refl (w : Workspace) : Same w w := fun _ => rfl

theorem Same.follow_eq (h : Same w w') (path : PathName) : w'.follow path = w.follow path := by
  have hfrom (place : List String) (node : Node) (parts : List String) :
      w'.followFrom place node parts = w.followFrom place node parts := by
    induction parts generalizing place node with
    | nil => rfl
    | cons part rest ih => simp only [followFrom, h _, ih]
  exact hfrom [] .directory path.parts

theorem same_set (hplace : place ≠ []) (hnode : w.node? place = some node) :
    Same w (w.set place node) := by
  intro other
  rw [node?_set hplace]
  split
  next heq => rw [heq, hnode]
  · rfl

/-! ### New directories -/

/-- Whether a workspace has all entries of another one, and besides them only directories. -/
structure Grows (w w' : Workspace) : Prop where
  kept : ∀ place node, w.node? place = some node → w'.node? place = some node
  gained : ∀ place node, w'.node? place = some node → w.node? place = some node ∨ node = .directory

/-- Whether what stands at a place stays there, and is new there only if it is a directory. -/
def GrowsAt (w w' : Workspace) (place : List String) : Prop :=
  (∀ node, w.node? place = some node → w'.node? place = some node) ∧
    ∀ node, w'.node? place = some node → w.node? place = some node ∨ node = .directory

theorem GrowsAt.congr {w'' : Workspace} (h : GrowsAt w w' place)
    (hnode : w''.node? place = w'.node? place) : GrowsAt w w'' place := by
  unfold GrowsAt at h ⊢
  rwa [hnode]

theorem Grows.at (h : Grows w w') (place : List String) : GrowsAt w w' place :=
  ⟨h.kept place, h.gained place⟩

theorem Same.grows (h : Same w w') : Grows w w' :=
  ⟨fun place _ hnode => (h place).trans hnode,
    fun place _ hnode => .inl ((h place).symm.trans hnode)⟩

theorem Grows.refl (w : Workspace) : Grows w w := ⟨fun _ _ h => h, fun _ _ h => .inl h⟩

theorem Grows.trans {w'' : Workspace} (h : Grows w w') (h' : Grows w' w'') : Grows w w'' := by
  refine ⟨fun place node hnode => h'.kept place node (h.kept place node hnode),
    fun place node hnode => ?_⟩
  rcases h'.gained place node hnode with hnode | hnode
  · exact h.gained place node hnode
  · exact .inr hnode

/-! ### One part of a path name after the other -/

/-- The place that one part of a path name leads to. -/
def stepPlace (place : List String) (part : String) : List String :=
  if part = ".." then place.dropLast else place ++ [part]

theorem followFrom_cons (w : Workspace) (place : List String) (node : Node) (part : String)
    (rest : List String) :
    w.followFrom place node (part :: rest) =
      if node = .directory then
        match w.node? (stepPlace place part) with
        | some next => w.followFrom (stepPlace place part) next rest
        | none =>
          if part ≠ ".." ∧ rest = [] then .vacant (stepPlace place part) else .noDirectory
      else .throughFile := by
  rw [followFrom]
  split
  · by_cases hpart : part = ".."
    · simp only [hpart, if_true, stepPlace]
      cases w.node? place.dropLast <;> simp
    · simp only [hpart, if_false, stepPlace]
      cases w.node? (place ++ [part]) <;> simp [hpart]
  · rfl

/-- What a path name leads to it leads to as long as no entry is gone. -/
theorem follow_of_kept
    (hkept : ∀ place node, w.node? place = some node → w'.node? place = some node)
    (hfollow : w.follow path = .found place node) : w'.follow path = .found place node := by
  have hfrom (cur : List String) (n : Node) (parts : List String)
      (hcur : w.followFrom cur n parts = .found place node) :
      w'.followFrom cur n parts = .found place node := by
    induction parts generalizing cur n with
    | nil => exact hcur
    | cons part rest ih =>
        rw [followFrom_cons] at hcur ⊢
        split at hcur
        next hdirectory =>
          rw [if_pos hdirectory]
          cases hnext : w.node? (stepPlace cur part) with
          | none =>
              simp only [hnext] at hcur
              split at hcur <;> cases hcur
          | some next =>
              simp only [hnext] at hcur
              simp only [hkept _ _ hnext]
              exact ih _ _ hcur
        · cases hcur
  exact hfrom [] .directory path.parts hfollow

/-- A path name leads to an entry that is there, or to a place where nothing is. -/
theorem node?_of_followFrom {cur : List String} {n : Node} {parts : List String}
    (hcur : w.node? cur = some n) :
    (∀ place node, w.followFrom cur n parts = .found place node → w.node? place = some node) ∧
      ∀ place, w.followFrom cur n parts = .vacant place → w.node? place = none := by
  induction parts generalizing cur n with
  | nil =>
      refine ⟨fun place node hfound => ?_, nofun⟩
      obtain ⟨rfl, rfl⟩ := Reached.found.inj hfound
      exact hcur
  | cons part rest ih =>
      rw [followFrom_cons]
      split
      · cases hnext : w.node? (stepPlace cur part) with
        | none =>
            refine ⟨fun place node hfound => ?_, fun place hvacant => ?_⟩
            · dsimp only at hfound
              split at hfound <;> cases hfound
            · dsimp only at hvacant
              split at hvacant
              · obtain rfl := Reached.vacant.inj hvacant
                exact hnext
              · cases hvacant
        | some next => exact ih hnext
      · exact ⟨nofun, nofun⟩

/-- A path name leads to one container. -/
theorem follow_container_inj {contents contents' : Container}
    (h : w.follow path = .found place (.container contents))
    (h' : w.follow path = .found other (.container contents')) :
    place = other ∧ contents = contents' :=
  (Reached.found.inj (h.symm.trans h')).imp_right Node.container.inj

theorem node?_of_found (hfollow : w.follow path = .found place node) : w.node? place = some node :=
  (node?_of_followFrom (node?_nil w)).1 place node hfollow

theorem node?_of_vacant (hfollow : w.follow path = .vacant place) : w.node? place = none :=
  (node?_of_followFrom (node?_nil w)).2 place hfollow

theorem ne_nil_of_found (hfollow : w.follow path = .found place node) (hnode : node ≠ .directory) :
    place ≠ [] := by
  rintro rfl
  exact hnode (Option.some.inj (node?_of_found hfollow)).symm

theorem ne_nil_of_vacant (hfollow : w.follow path = .vacant place) : place ≠ [] := by
  rintro rfl
  cases node?_of_vacant hfollow

/-- A path name that leads to a file, or to a place where nothing is, leads to what is put there
in its place. -/
theorem follow_set (new : Node)
    (hfollow : (∃ node, w.follow path = .found place node ∧ node ≠ .directory) ∨
      w.follow path = .vacant place) : (w.set place new).follow path = .found place new := by
  have hplace : place ≠ [] := by
    rcases hfollow with ⟨node, hfound, hnode⟩ | hvacant
    · exact ne_nil_of_found hfound hnode
    · exact ne_nil_of_vacant hvacant
  have hfile : w.node? place ≠ some .directory := by
    rcases hfollow with ⟨node, hfound, hnode⟩ | hvacant
    · rw [node?_of_found hfound]
      exact fun heq => hnode (Option.some.inj heq)
    · rw [node?_of_vacant hvacant]
      nofun
  -- the parts before the last one lead through directories, which stay as they are
  have hfrom (cur : List String) (n : Node) (parts : List String) (hcur : w.node? cur = some n)
      (hend : (∃ node, w.followFrom cur n parts = .found place node) ∨
        w.followFrom cur n parts = .vacant place) :
      (w.set place new).followFrom cur (if cur = place then new else n) parts =
        .found place new := by
    induction parts generalizing cur n with
    | nil =>
        rcases hend with ⟨node, hfound⟩ | hvacant
        · obtain ⟨rfl, -⟩ := Reached.found.inj hfound
          rw [if_pos rfl, followFrom]
        · cases hvacant
    | cons part rest ih =>
        rw [followFrom_cons] at hend
        by_cases hdirectory : n = .directory
        · have hne : cur ≠ place := by
            rintro rfl
            exact hfile (hdirectory ▸ hcur)
          simp only [if_pos hdirectory] at hend
          rw [if_neg hne, followFrom_cons, if_pos hdirectory, node?_set hplace]
          cases hnext : w.node? (stepPlace cur part) with
          | some next =>
              simp only [hnext] at hend
              have hrest := ih _ next hnext hend
              by_cases hstep : stepPlace cur part = place
              · rw [if_pos hstep] at hrest ⊢
                exact hrest
              · rw [if_neg hstep] at hrest ⊢
                exact hrest
          | none =>
              simp only [hnext] at hend
              rcases hend with ⟨node, hfound⟩ | hvacant
              · split at hfound <;> cases hfound
              · split at hvacant
                next hlast =>
                  obtain rfl := Reached.vacant.inj hvacant
                  simp [hlast.2, followFrom]
                · cases hvacant
        · simp [hdirectory] at hend
  have hend : (∃ node, w.follow path = .found place node) ∨ w.follow path = .vacant place := by
    rcases hfollow with ⟨node, hfound, -⟩ | hvacant
    · exact .inl ⟨node, hfound⟩
    · exact .inr hvacant
  have hpath := hfrom [] .directory path.parts (node?_nil w) hend
  rwa [if_neg hplace.symm] at hpath

theorem same_set_found (hfollow : w.follow path = .found place node) (hnode : node ≠ .directory) :
    Same w (w.set place node) :=
  same_set (ne_nil_of_found hfollow hnode) (node?_of_found hfollow)

theorem same_set_set (hplace : place ≠ []) {new : Node} :
    Same (w.set place new) ((w.set place node).set place new) := by
  intro other
  rw [node?_set hplace, node?_set hplace, node?_set hplace]
  split <;> rfl

/-! ### Making directories and removing files -/

theorem makeAlong_grows (w : Workspace) (done parts : List String) :
    Grows w (w.makeAlong done parts) := by
  induction parts generalizing w done with
  | nil => exact .refl w
  | cons part rest ih =>
      simp only [makeAlong]
      cases hfollow : w.follow ⟨done ++ [part]⟩ with
      | vacant place =>
          have hplace := ne_nil_of_vacant hfollow
          have hvacant := node?_of_vacant hfollow
          refine Grows.trans ⟨fun other node hnode => ?_, fun other node hnode => ?_⟩ (ih _ _)
          · rw [node?_set hplace, if_neg (by rintro rfl; simp [hvacant] at hnode)]
            exact hnode
          · rw [node?_set hplace] at hnode
            split at hnode
            · exact .inr (Option.some.inj hnode).symm
            · exact .inl hnode
      | _ => exact ih _ _

theorem makeDirectory_grows {w made : Workspace} {path : PathName}
    (h : w.makeDirectory path = .ok made) : Grows w made := by
  unfold makeDirectory at h
  split at h
  · obtain rfl := Except.ok.inj h
    exact .refl w
  · cases h
  · cases h
  · obtain rfl := Except.ok.inj h
    exact makeAlong_grows w [] path.parts

/-- A file at a place that has become vacant with its directories is in nobody's way. -/
theorem follow_set_of_vacant {made : Workspace} {dir target : PathName} {position : List String}
    (hmade : w.makeDirectory dir = .ok made) (hvacant : made.follow target = .vacant place)
    (new : Node) (hfollow : w.follow path = .found position node) :
    (made.set place new).follow path = .found position node := by
  refine follow_of_kept (fun other kept hkept => ?_) hfollow
  have hother : made.node? other = some kept := (makeDirectory_grows hmade).kept _ _ hkept
  have hne : other ≠ place := by
    rintro rfl
    rw [node?_of_vacant hvacant] at hother
    cases hother
  rw [node?_set (ne_nil_of_vacant hvacant), if_neg hne]
  exact hother

theorem Same.contains_eq (h : Same w w') (path : PathName) :
    w'.contains path = w.contains path := by
  simp only [contains, h.follow_eq]

theorem contains_eq_true {w : Workspace} {path : PathName} :
    w.contains path = true ↔ ∃ place node, w.follow path = .found place node := by
  unfold contains
  cases w.follow path <;> simp

theorem containerOf_eq_ok {file : String} {contents : Container}
    (h : containerOf file node = .ok contents) : node = .container contents := by
  cases node with
  | container c => rw [Except.ok.inj h]
  | _ => cases h

/-- A container that has been opened is what its path name leads to. -/
theorem openExisting_eq_ok {contents : Container}
    (h : w.openExisting path = .ok (place, contents)) :
    w.follow path = .found place (.container contents) := by
  unfold openExisting at h
  split at h
  next node hfollow =>
    cases hnode : containerOf path.text node with
    | ok c =>
        rw [hnode] at h
        obtain ⟨rfl, rfl⟩ := Prod.mk.inj (Except.ok.inj h)
        rw [hfollow, containerOf_eq_ok hnode]
    | error failure =>
        rw [hnode] at h
        cases h
  · cases h

/-! ### Opening containers -/

theorem followFrom_append {cur : List String} {n : Node} {parts rest : List String}
    (hfollow : w.followFrom cur n (parts ++ rest) = .found place node) :
    ∃ position next, w.followFrom cur n parts = .found position next ∧
      w.followFrom position next rest = .found place node := by
  induction parts generalizing cur n with
  | nil => exact ⟨cur, n, rfl, hfollow⟩
  | cons part parts ih =>
      rw [List.cons_append, followFrom_cons] at hfollow
      rw [followFrom_cons]
      split at hfollow
      next hdirectory =>
        rw [if_pos hdirectory]
        cases hnext : w.node? (stepPlace cur part) with
        | none =>
            simp only [hnext] at hfollow
            split at hfollow <;> cases hfollow
        | some next =>
            simp only [hnext] at hfollow
            exact ih hfollow
      · cases hfollow

/-- A file is in a directory, to which the path name without its last part leads. -/
theorem follow_parent (hfollow : w.follow path = .found place node) (hnode : node ≠ .directory) :
    ∃ position, w.follow path.parent = .found position .directory := by
  obtain ⟨parts⟩ := path
  obtain rfl | ⟨parts, last, rfl⟩ := parts.eq_nil_or_concat
  · cases hfollow
    exact absurd rfl hnode
  · rw [List.concat_eq_append] at hfollow ⊢
    have hwhole : w.followFrom [] .directory (parts ++ [last]) = .found place node := hfollow
    obtain ⟨position, next, hparent, hlast⟩ := followFrom_append hwhole
    rw [followFrom_cons] at hlast
    split at hlast
    next hdirectory =>
      refine ⟨position, ?_⟩
      rw [follow, PathName.parent, List.dropLast_concat, hparent, hdirectory]
    · cases hlast

theorem openCreating_of_found {contents : Container}
    (hfollow : w.follow path = .found place (.container contents)) :
    w.openCreating path = (w, .ok (place, contents)) := by
  obtain ⟨position, hparent⟩ := follow_parent hfollow nofun
  simp only [openCreating, makeDirectory, hparent, openAt, hfollow]
  rfl

theorem openCreating_of_vacant {made : Workspace} (hmade : w.makeDirectory path.parent = .ok made)
    (hvacant : made.follow path = .vacant place) :
    w.openCreating path = (made.set place (.container .empty), .ok (place, .empty)) := by
  simp only [openCreating, hmade, openAt, hvacant]

/-! ### Discarding files -/

theorem discard_of_not_contains (h : w.contains path = false) : w.discard path = .ok w := by
  unfold contains at h
  unfold discard
  cases hfollow : w.follow path with
  | found place node => simp [hfollow] at h
  | _ => rfl

/-- Discarding a path name removes the file that it leads to and nothing else. -/
theorem discard_cases (w : Workspace) (path : PathName) :
    (w.discard path = .ok w ∧ ∀ place node, w.follow path ≠ .found place node) ∨
      (∃ place, w.follow path = .found place .directory ∧
        w.discard path = .error (.notRemovable path.text)) ∨
      ∃ place node, w.follow path = .found place node ∧ node ≠ .directory ∧
        w.discard path = .ok (w.remove place) := by
  unfold discard
  cases hfollow : w.follow path with
  | found place node =>
      cases node with
      | directory => exact .inr (.inl ⟨place, rfl, rfl⟩)
      | container contents => exact .inr (.inr ⟨place, _, rfl, by simp, rfl⟩)
      | plain data => exact .inr (.inr ⟨place, _, rfl, by simp, rfl⟩)
  | _ => exact .inl ⟨rfl, nofun⟩

/-- Discarding a file that has been made at a vacant place takes it back. -/
theorem discard_of_vacant {contents : Container} (hvacant : w.follow path = .vacant place)
    (hsame : (w.set place (.container contents)).Same w') :
    ∃ kept, w'.discard path = .ok kept ∧ w.Same kept := by
  have hplace := ne_nil_of_vacant hvacant
  have hfound : w'.follow path = .found place (.container contents) :=
    (hsame.follow_eq path).trans (follow_set _ (.inr hvacant))
  refine ⟨w'.remove place, ?_, fun other => ?_⟩
  · unfold discard
    rw [hfound]
  · rw [node?_remove hplace, hsame, node?_set hplace]
    split
    next heq => rw [heq, node?_of_vacant hvacant]
    · rfl

/-- A path name that has been discarded leads nowhere, not even to a file that it has hidden. -/
theorem not_found_of_discard (h : w.discard path = .ok w') (place : List String) (node : Node) :
    w'.follow path ≠ .found place node := by
  intro hfollow
  rcases discard_cases w path with
    ⟨hdiscard, hnone⟩ | ⟨directory, -, hdiscard⟩ | ⟨file, old, hfound, hold, hdiscard⟩
  · obtain rfl := Except.ok.inj (hdiscard.symm.trans h)
    exact hnone place node hfollow
  · cases hdiscard.symm.trans h
  · obtain rfl := Except.ok.inj (hdiscard.symm.trans h)
    have hfile := ne_nil_of_found hfound hold
    have hkept : ∀ other kept, (w.remove file).node? other = some kept →
        w.node? other = some kept := by
      intro other kept hnode
      rw [node?_remove hfile] at hnode
      split at hnode
      · cases hnode
      · exact hnode
    obtain ⟨rfl, rfl⟩ := Reached.found.inj ((follow_of_kept hkept hfollow).symm.trans hfound)
    have hgone := node?_of_found hfollow
    rw [node?_remove hfile, if_pos rfl] at hgone
    cases hgone

end Workspace

end TileAtlas
