import TileAtlas.Proofs.Container.Rollback
import TileAtlas.Proofs.Metadata.Reorder
import TileAtlas.Proofs.Tileset.Reached
import TileAtlas.Proofs.Tileset.Shown

/-!
# Merging changes into a tileset

The state of the metadata that the merge goes by and the metadata in the container agree on every
name all along, though their order may differ.
-/

namespace TileAtlas

/-! ### Names of a holding -/

namespace Holding

variable {h : Holding}

theorem lookup_putMetadata (name other : String) (value : Option String) :
    (h.putMetadata name value).metadata.lookup other =
      if other = name then value else h.metadata.lookup other := by
  have herase (entries : List (String × String)) :
      (entries.filter fun entry => !decide (entry.1 = name)).lookup other =
        if other = name then none else entries.lookup other := by
    induction entries with
    | nil => simp
    | cons entry rest ih =>
        obtain ⟨key, old⟩ := entry
        by_cases hkey : key = name
        · rw [List.filter_cons_of_neg (by simp [hkey]), ih]
          by_cases hother : other = name
          · simp [hother]
          · simp [hkey, hother, List.lookup_cons, beq_false_of_ne hother]
        · rw [List.filter_cons_of_pos (by simp [hkey]), List.lookup_cons, ih, List.lookup_cons]
          by_cases hother : other = name
          · simp [hother, beq_false_of_ne (Ne.symm hkey)]
          · simp [hother]
  show ((h.erase name).metadata ++ (value.map (name, ·)).toList).lookup other = _
  rw [List.lookup_append, erase, herase]
  by_cases hother : other = name
  · cases value <;> simp [hother]
  · cases value <;> simp [hother, List.lookup_cons, beq_false_of_ne hother]

/-- Whether some metadata has the values that are held. -/
def Agrees (h : Holding) (m : Metadata) : Prop :=
  ∀ name : String, m.get? (.text name) = (h.metadata.lookup name).map .text

theorem agrees_ofTexts (h : Holding) : h.Agrees (.ofTexts h.metadata) :=
  fun name => Metadata.get?_ofTexts h.metadata name

theorem Agrees.set {m : Metadata} (hm : h.Agrees m) (name value : String) :
    (h.putMetadata name (some value)).Agrees (m.set (.text name) (.text value)) := by
  intro other
  rw [Metadata.get?_set, lookup_putMetadata, hm other]
  split <;> rfl

theorem Agrees.erase {m : Metadata} (hm : h.Agrees m) (name : String) :
    (h.putMetadata name none).Agrees (m.erase (.text name)) := by
  intro other
  rw [Metadata.get?_erase, lookup_putMetadata, hm other]
  split <;> rfl

end Holding

/-! ### Changes -/

namespace MetadataChange

/-- A change of texts does to the metadata what putting its value does to a holding. -/
theorem IsText.agrees {change : MetadataChange} (hchange : change.IsText) :
    ∃ (name : String) (value : Option String), change.name = .text name ∧
      change.value = .ofText? value ∧
      ∀ (h : Holding) (m : Metadata), h.Agrees m →
        (h.putMetadata name value).Agrees (change.applyTo m) := by
  obtain ⟨name, rfl | ⟨value, rfl | rfl⟩⟩ := hchange
  · exact ⟨name, none, rfl, rfl, fun h m hm => hm.erase name⟩
  · exact ⟨name, some value, rfl, rfl, fun h m hm => hm.set name value⟩
  · exact ⟨name, some value, rfl, rfl, fun h m hm => hm.set name value⟩

end MetadataChange

namespace Tileset

variable {t : Tileset} {file : String} {h : Holding} {s : Session}

theorem notify_spec (hs : t.Holds file h s) (notices : List Notice) :
    Yields (Action.notify notices) s fun _ s' => t.Holds file h s' :=
  .intro rfl ⟨hs.file_eq, hs.writable, hs.contents, hs.valid, hs.knows⟩

/-- What a merge comes to, with one change before it. -/
def counted (taken : Bool) :
    EStateM.Result Failure Session Nat → EStateM.Result Failure Session Nat
  | .ok n s => .ok (n + taken.toNat) s
  | .error failure s => .error failure s

section MergeFrom

variable {policy : MergePolicy} {current : Metadata} {change : MetadataChange}
  {changes : List MetadataChange}

theorem mergeFrom_skip (hresolve : change.resolve policy (current.get? change.name) = .ok false)
    (rest : List MetadataChange) : mergeFrom policy current (change :: rest) s =
      counted false (mergeFrom policy (change.step false current) rest
        { s with notices := s.notices ++ change.notices }) := by
  simp only [mergeFrom, bind_apply, Action.notify, modify_apply, hresolve, MetadataChange.step,
    Bool.false_eq_true, if_false]
  cases mergeFrom policy current rest { s with notices := s.notices ++ change.notices } <;> rfl

theorem mergeFrom_take {s' : Session}
    (hresolve : change.resolve policy (current.get? change.name) = .ok true)
    (hput : putMetadata change.name change.value
      { s with notices := s.notices ++ change.notices } = .ok () s')
    (rest : List MetadataChange) : mergeFrom policy current (change :: rest) s =
      counted true (mergeFrom policy (change.step true current) rest s') := by
  simp only [mergeFrom, bind_apply, Action.notify, modify_apply, hresolve, hput,
    MetadataChange.step, if_true]
  cases mergeFrom policy (change.applyTo current) rest s' <;> rfl

/-- A change that is not refused leaves the container in step with the metadata. -/
theorem mergeFrom_step {taken : Bool} (hs : t.Holds file h s) (hagrees : h.Agrees current)
    (hchange : change.IsText)
    (hresolve : change.resolve policy (current.get? change.name) = .ok taken) :
    ∃ h' s', t.Holds file h' s' ∧ h'.tiles = h.tiles ∧ h'.images = h.images ∧
      h'.Agrees (change.step taken current) ∧
      ∀ rest, mergeFrom policy current (change :: rest) s =
        counted taken (mergeFrom policy (change.step taken current) rest s') := by
  obtain ⟨_, s₁, hnotified, hs₁⟩ := notify_spec hs change.notices
  obtain rfl := (EStateM.Result.ok.inj hnotified).2
  cases taken with
  | false => exact ⟨h, _, hs₁, rfl, rfl, hagrees, mergeFrom_skip hresolve⟩
  | true =>
      obtain ⟨name, value, hname, hvalue, hput⟩ := hchange.agrees
      obtain ⟨_, s₂, hrun, hs₂⟩ := putMetadata_spec hs₁ name value
      rw [← hname, ← hvalue] at hrun
      exact ⟨_, s₂, hs₂, rfl, rfl, hput h current hagrees, mergeFrom_take hresolve hrun⟩

/-- Merging changes into an open tileset ends as merging them into its metadata does. -/
theorem mergeFrom_spec (policy : MergePolicy) (hs : t.Holds file h s) (hagrees : h.Agrees current)
    (hchanges : ∀ change ∈ changes, change.IsText) :
    (∀ merged, (current.merge policy changes).2 = .ok merged →
      Yields (mergeFrom policy current changes) s fun n s' => n = current.written changes ∧
        ∃ h', t.Holds file h' s' ∧ h'.tiles = h.tiles ∧ h'.images = h.images ∧
          h'.Agrees merged) ∧
    ∀ fault, (current.merge policy changes).2 = .error fault →
      FailsWith (mergeFrom policy current changes) s (.fault fault) := by
  induction changes generalizing current h s with
  | nil =>
      refine ⟨fun merged hmerged => .pure ⟨rfl, h, hs, rfl, rfl, ?_⟩, nofun⟩
      rwa [← Except.ok.inj hmerged]
  | cons change rest ih =>
      obtain ⟨hchange, hrest⟩ := List.forall_mem_cons.1 hchanges
      cases hresolve : change.resolve policy (current.get? change.name) with
      | error fault =>
          rw [Metadata.merge_cons_error hresolve]
          refine ⟨nofun, fun fault' hfault => ?_⟩
          obtain rfl := Except.error.inj hfault
          refine ⟨{ s with notices := s.notices ++ change.notices }, ?_⟩
          simp only [mergeFrom, bind_apply, Action.notify, modify_apply, hresolve, throw_apply]
      | ok taken =>
          obtain ⟨h₁, s₁, hs₁, htiles, himages, hagrees₁, hrun⟩ :=
            mergeFrom_step hs hagrees hchange hresolve
          obtain ⟨hyields, hfails⟩ := ih hs₁ hagrees₁ hrest
          rw [Metadata.merge_cons_ok hresolve]
          refine ⟨fun merged hmerged => ?_, fun fault hfault => ?_⟩
          · obtain ⟨n, s₂, hlast, rfl, h₂, hs₂, htiles₂, himages₂, hagrees₂⟩ :=
              hyields merged hmerged
            refine ⟨_, s₂, by rw [hrun, hlast]; rfl, ?_, h₂, hs₂, htiles₂.trans htiles,
              himages₂.trans himages, hagrees₂⟩
            exact (Metadata.written_cons hchange hresolve rest).symm
          · obtain ⟨s₂, hlast⟩ := hfails fault hfault
            exact ⟨s₂, by rw [hrun, hlast]; rfl⟩

/-- Merging changes into an open tileset fails exactly if merging them into its metadata does, and
ends with metadata that agrees with the outcome. -/
theorem mergeFrom_decides (policy : MergePolicy) (hs : t.Holds file h s)
    (hagrees : h.Agrees current) (hchanges : ∀ change ∈ changes, change.IsText) :
    Decides (mergeFrom policy current changes) s
      (∃ m, (current.merge policy changes).2 = .ok m) fun _ s' => ∃ h', t.Holds file h' s' ∧
        h'.tiles = h.tiles ∧ h'.images = h.images ∧
          ∀ m, (current.merge policy changes).2 = .ok m → h'.Agrees m := by
  obtain ⟨hyields, hfails⟩ := mergeFrom_spec policy hs hagrees hchanges
  constructor
  · rintro ⟨merged, hmerged⟩
    refine (hyields merged hmerged).mono ?_
    rintro _ s' ⟨-, h', hs', htiles, himages, hagrees'⟩
    refine ⟨h', hs', htiles, himages, fun m hm => ?_⟩
    rwa [← Except.ok.inj (hmerged.symm.trans hm)]
  · intro hnot
    cases hmerge : (current.merge policy changes).2 with
    | ok merged => exact absurd ⟨merged, hmerge⟩ hnot
    | error fault =>
        obtain ⟨s', hrun⟩ := hfails fault hmerge
        exact ⟨.fault fault, s', hrun⟩

end MergeFrom

/-- What messages leave alone and what every change keeps whose name is not reserved, a merge keeps,
however it ends. -/
theorem mergeFrom_leaves {I : Session → Prop} {changes : List MetadataChange}
    (hnotify : ∀ s notices, I s → I { s with notices })
    (hput : ∀ change ∈ changes, isReserved change.name = false → ∀ s, I s →
      Leaves (putMetadata change.name change.value) s I)
    (policy : MergePolicy) (current : Metadata) (hs : I s) :
    Leaves (mergeFrom policy current changes) s I := by
  induction changes generalizing current s with
  | nil => exact .pure hs
  | cons change rest ih =>
      obtain ⟨hfirst, hrest⟩ := List.forall_mem_cons.1 hput
      have hnotified : Leaves (Action.notify change.notices) s I := hnotify s _ hs
      refine hnotified.bind fun _ s₁ hs₁ => ?_
      cases hresolve : change.resolve policy (current.get? change.name) with
      | error fault => exact .throw hs₁
      | ok taken =>
          cases taken with
          | false => exact ih hrest current hs₁
          | true =>
              have hname : isReserved change.name = false := by
                unfold MetadataChange.resolve at hresolve
                split at hresolve
                · cases hresolve
                next hnot => exact Bool.eq_false_iff.2 hnot
              refine (hfirst hname s₁ hs₁).bind fun _ s₂ hs₂ => ?_
              exact (ih hrest _ hs₂).bind fun _ _ hs₃ => .pure hs₃

theorem merge_leaves {I : Session → Prop} {changes : List MetadataChange}
    (hnotify : ∀ s notices, I s → I { s with notices })
    (hput : ∀ change ∈ changes, isReserved change.name = false → ∀ s, I s →
      Leaves (putMetadata change.name change.value) s I)
    (policy : MergePolicy) (hs : I s) : Leaves (merge policy changes) s I := by
  refine (Action.leaves_query _ hs).bind fun current s' hs' => ?_
  exact mergeFrom_leaves hnotify hput policy current hs'

end Tileset

end TileAtlas
