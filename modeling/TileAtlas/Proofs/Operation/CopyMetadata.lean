import TileAtlas.Proofs.Operation.Copy
import TileAtlas.Proofs.Operation.Unfiltered

/-!
# What a copy of metadata leaves in its destination

A copy of metadata is a merge of additions, one for each name of the source that is not reserved.
What happens to a name that the destination holds is told by the policy that the additions are
merged under, and by leaving some of them out beforehand.  Together these come to a choice between
the two values of each name.
-/

namespace TileAtlas

namespace Copy

/-- The names under which a source and a destination have different values. -/
def differing (source held : Metadata) : Set String :=
  {name | ∃ old new, held.get? (.text name) = some old ∧ source.get? (.text name) = some new ∧
    old ≠ new}

/-- The value that a copy leaves under a name, given the one in the source and the one before. -/
def chosen (onDuplicate : OnDuplicate) (new old : Option Cell) : Option Cell :=
  if onDuplicate = .override then new.or old else old.or new

/-- The number of names that a copy takes from a source: those that are new and, if values are
overridden, those with another value. -/
def taken (onDuplicate : OnDuplicate) (source held : Metadata) : Nat :=
  source.names.countP (fun name => (held.get? name).isNone) +
    if onDuplicate = .override then
      source.names.countP fun name =>
        (held.get? name).isSome && decide (held.get? name ≠ source.get? name)
    else 0

/-- Whether a fault tells of the smallest name under which values differ, and of both values. -/
def FirstConflict (source held : Metadata) (fault : Fault) : Prop :=
  ∃ name old new, fault = .metadataConflict (.text name) old new ∧
    IsLeast (differing source held) name ∧
    held.get? (.text name) = some old ∧ source.get? (.text name) = some new

/-- What a copy of metadata makes of a holding: the tiles stay as they are, and each name has the
chosen value. -/
structure Brings (onDuplicate : OnDuplicate) (source : Metadata) (h h' : Holding) : Prop where
  tiles : h'.tiles = h.tiles
  values : ∀ name : String, (Metadata.ofTexts h'.metadata).get? (.text name) =
    chosen onDuplicate (source.get? (.text name)) ((Metadata.ofTexts h.metadata).get? (.text name))

/-! ### The additions -/

/-- The change that brings the value of a name to a destination. -/
def addition (onDuplicate : OnDuplicate) (source held : Metadata) (name : Cell) :
    Option MetadataChange :=
  if onDuplicate = .ignore ∧ held.contains name then none
  else (source.get? name).map (.add name)

def additions (onDuplicate : OnDuplicate) (source held : Metadata) (names : List String) :
    List MetadataChange :=
  (names.map .text).filterMap (addition onDuplicate source held)

section Additions

variable {onDuplicate : OnDuplicate} {policy : MergePolicy} {source held : Metadata}
  {names : List String} {change : MetadataChange} {name value : String}

/-- The changes of a copy are additions in ascending order of names. -/
theorem metadataChanges_texts (onDuplicate : OnDuplicate) (hsource : source.IsTextMap)
    (held : Metadata) :
    ∃ names : List String,
      metadataChanges onDuplicate source held = .ok (additions onDuplicate source held names) ∧
      names.Pairwise (· < ·) ∧ (names.map .text).Perm source.user.names := by
  obtain ⟨entries, huser, hdistinct⟩ := hsource.user.eq_ofTexts
  have hnames : source.user.names = (entries.map (·.1)).map .text := by
    rw [huser, Metadata.names, Metadata.ofTexts, List.map_map, List.map_map]
    rfl
  have hne : (entries.map (·.1)).Pairwise fun a b => id a ≠ id b := List.pairwise_map.2 hdistinct
  refine ⟨sortBy (fun a b => decide (a ≤ b)) (entries.map (·.1)), ?_, pairwise_lt_sortBy id hne, ?_⟩
  · simp only [metadataChanges, hnames, Metadata.sortNames?_texts]
    rfl
  · rw [hnames]
    exact (sortBy_perm _ _).map _

theorem addition_eq {value : Cell} (hvalue : source.user.get? (.text name) = some value) :
    addition onDuplicate source held (.text name) =
      if onDuplicate = .ignore ∧ held.get? (.text name) ≠ none then none
      else some (.add (.text name) value) := by
  have hname := Metadata.unreserved_of_isSome (Option.isSome_of_eq_some hvalue)
  rw [Metadata.get?_user, hname, if_neg Bool.false_ne_true] at hvalue
  simp only [addition, Metadata.contains, Option.isSome_iff_ne_none, hvalue, Option.map_some]

theorem mem_additions (hsource : source.IsTextMap)
    (hnames : (names.map .text).Perm source.user.names) :
    change ∈ additions onDuplicate source held names ↔ ∃ name value : String,
      change = .add (.text name) (.text value) ∧
        source.user.get? (.text name) = some (.text value) ∧
        (onDuplicate = .ignore → held.get? (.text name) = none) := by
  rw [additions, List.mem_filterMap]
  constructor
  · rintro ⟨_, hmem, hadded⟩
    obtain ⟨name, -, rfl⟩ := List.mem_map.1 hmem
    obtain ⟨value, hvalue⟩ := hsource.user.mem_names_iff.1 (hnames.mem_iff.1 hmem)
    rw [addition_eq hvalue] at hadded
    split at hadded
    · cases hadded
    next hleft =>
      rw [not_and, not_not] at hleft
      exact ⟨name, value, (Option.some.inj hadded).symm, hvalue, hleft⟩
  · rintro ⟨name, value, rfl, hvalue, hleft⟩
    refine ⟨.text name, hnames.mem_iff.2 (hsource.user.mem_names_iff.2 ⟨value, hvalue⟩), ?_⟩
    rw [addition_eq hvalue, if_neg fun hignored => hignored.2 (hleft hignored.1)]

theorem name_of_addition {name : Cell}
    (hadded : addition onDuplicate source held name = some change) : change.name = name := by
  unfold addition at hadded
  split at hadded
  · cases hadded
  · obtain ⟨_, -, rfl⟩ := Option.map_eq_some_iff.1 hadded
    rfl

theorem listed_additions (hsource : source.IsTextMap) (hsorted : names.Pairwise (· < ·))
    (hnames : (names.map .text).Perm source.user.names) :
    Metadata.Listed (additions onDuplicate source held names) where
  texts change hchange := by
    obtain ⟨name, value, rfl, -⟩ := (mem_additions hsource hnames).1 hchange
    exact ⟨name, .inr ⟨value, .inl rfl⟩⟩
  unreserved change hchange := by
    obtain ⟨name, value, rfl, hvalue, -⟩ := (mem_additions hsource hnames).1 hchange
    exact Metadata.unreserved_of_isSome (Option.isSome_of_eq_some hvalue)
  ascending := by
    refine List.pairwise_filterMap.2 (List.pairwise_map.2 (hsorted.imp ?_))
    intro a b hab change hchange other hother
    rwa [name_of_addition hchange, name_of_addition hother]

/-! ### Merging the additions -/

theorem refused_add_iff (hname : isReserved (.text name) = false) :
    (MetadataChange.add (.text name) (.text value)).Refused policy held ↔
      policy = .strict ∧ ∃ old, held.get? (.text name) = some old ∧ old ≠ .text value := by
  unfold MetadataChange.Refused MetadataChange.resolve
  simp only [MetadataChange.name, hname, Bool.false_eq_true, if_false]
  cases held.get? (.text name) with
  | none => simp
  | some old =>
      by_cases hsame : old = .text value <;> cases policy <;> simp [Cell.same_text_right, hsame]

theorem resolve_add {old : Cell} (hname : isReserved (.text name) = false)
    (hne : old ≠ .text value) :
    (MetadataChange.add (.text name) (.text value)).resolve .strict (some old) =
      .error (.metadataConflict (.text name) old (.text value)) := by
  simp [MetadataChange.resolve, MetadataChange.name, hname, Cell.same_text_right, hne]

theorem counts_addition (hvalue : source.user.get? (.text name) = some (.text value)) :
    ((addition onDuplicate source held (.text name)).map fun change =>
        decide (¬ change.Skipped (held.get? change.name))).getD false =
      decide (held.get? (.text name) ≠ some (.text value) ∧
        (onDuplicate = .ignore → held.get? (.text name) = none)) := by
  have hname := Metadata.unreserved_of_isSome (Option.isSome_of_eq_some hvalue)
  rw [addition_eq hvalue]
  by_cases hignored : onDuplicate = .ignore ∧ held.get? (.text name) ≠ none
  · rw [if_pos hignored]
    simp [hignored]
  · rw [if_neg hignored]
    rw [not_and, not_not] at hignored
    have hskipped : (MetadataChange.add (.text name) (.text value)).Skipped
        (held.get? (.text name)) ↔ held.get? (.text name) = some (.text value) := by
      simp [MetadataChange.Skipped, MetadataChange.name, MetadataChange.action,
        MetadataChange.outcome, hname]
    exact decide_eq_decide.2 (hskipped.not.trans (and_iff_left hignored).symm)

theorem eq_of_agree {old new : Cell} (hagree : differing source held = ∅)
    (hold : held.get? (.text name) = some old) (hnew : source.get? (.text name) = some new) :
    old = new := by
  by_contra hne
  have hdiffers : name ∈ differing source held := ⟨old, new, hold, hnew, hne⟩
  rw [hagree] at hdiffers
  exact hdiffers

theorem chosen_of_new {new : Cell} {old : Option Cell}
    (hignore : onDuplicate = .ignore → old = none)
    (habort : onDuplicate = .abort → ∀ value, old = some value → value = new) :
    chosen onDuplicate (some new) old = some new := by
  unfold chosen
  cases onDuplicate with
  | override => rfl
  | ignore =>
      rw [hignore rfl]
      rfl
  | abort =>
      cases old with
      | none => rfl
      | some value =>
          rw [habort rfl value rfl]
          rfl

theorem chosen_of_kept {new old : Option Cell}
    (hkept : new = none ∨ onDuplicate = .ignore ∧ old ≠ none) :
    chosen onDuplicate new old = old := by
  unfold chosen
  rcases hkept with rfl | ⟨rfl, hold⟩
  · rw [Option.none_or, Option.or_none, ite_self]
  · obtain ⟨value, rfl⟩ := Option.ne_none_iff_exists'.1 hold
    rfl

section Merge

variable (hsource : source.IsTextMap) (hsorted : names.Pairwise (· < ·))
  (hnames : (names.map .text).Perm source.user.names)

include hsource hnames

/-- An addition is refused only if the copy is to be aborted and a value differs. -/
theorem refused_additions_iff (hchange : change ∈ additions onDuplicate source held names) :
    change.Refused onDuplicate.policy held ↔
      onDuplicate = .abort ∧ ∃ name ∈ differing source.user held, change.name = .text name := by
  obtain ⟨name, value, rfl, hvalue, hleft⟩ := (mem_additions hsource hnames).1 hchange
  rw [refused_add_iff (Metadata.unreserved_of_isSome (Option.isSome_of_eq_some hvalue))]
  constructor
  · rintro ⟨hpolicy, old, hold, hne⟩
    refine ⟨?_, name, ⟨old, _, hold, hvalue, hne⟩, rfl⟩
    cases onDuplicate with
    | override => cases hpolicy
    | ignore => simp [hleft rfl] at hold
    | abort => rfl
  · rintro ⟨rfl, other, ⟨old, new, hold, hnew, hne⟩, heq⟩
    obtain rfl := Cell.text.inj heq
    rw [hvalue] at hnew
    exact ⟨rfl, old, hold, Option.some.inj hnew ▸ hne⟩

include hsorted

/-- A copy that is to be aborted ends at the smallest name under which values differ. -/
theorem merge_additions_conflict (hdiffer : (differing source.user held).Nonempty) :
    ∃ fault, FirstConflict source.user held fault ∧
      (held.merge .strict (additions .abort source held names)).2 = .error fault := by
  have hlisted : Metadata.Listed (additions .abort source held names) :=
    listed_additions hsource hsorted hnames
  have hadded : ∀ name ∈ differing source.user held,
      ∃ change ∈ additions .abort source held names, change.name = .text name ∧
        change.Refused .strict held := by
    rintro name ⟨old, new, hold, hnew, hne⟩
    obtain ⟨value, rfl⟩ := hsource.user.hasText hnew
    have hmem : MetadataChange.add (.text name) (.text value) ∈
        additions .abort source held names :=
      (mem_additions hsource hnames).2 ⟨name, value, rfl, hnew, nofun⟩
    refine ⟨_, hmem, rfl, (refused_additions_iff hsource hnames hmem).2 ⟨rfl, name, ?_, rfl⟩⟩
    exact ⟨old, _, hold, hnew, hne⟩
  obtain ⟨_, hdiffers⟩ := hdiffer
  obtain ⟨change, hchange, -, hrefused⟩ := hadded _ hdiffers
  obtain ⟨before, first, after, hsplit, hfirst, hbefore, hleast⟩ :=
    exists_first_of_ascending (fun change : MetadataChange => change.name.display)
      hlisted.ascending ⟨change, hchange, hrefused⟩
  have hmem : first ∈ additions .abort source held names := by simp [hsplit]
  obtain ⟨name, value, rfl, hvalue, -⟩ := (mem_additions hsource hnames).1 hmem
  have hname := hlisted.unreserved _ hmem
  obtain ⟨-, old, hold, hne⟩ := (refused_add_iff hname).1 hfirst
  refine ⟨_, ⟨name, old, .text value, rfl, ⟨⟨old, _, hold, hvalue, hne⟩, fun other hother => ?_⟩,
    hold, hvalue⟩, ?_⟩
  · obtain ⟨change, hchange, hother, hrefused⟩ := hadded other hother
    have hle := hleast change hchange hrefused
    rwa [hother] at hle
  · have hdistinct := hlisted.distinct
    have htexts := hlisted.texts
    rw [hsplit] at hdistinct htexts ⊢
    refine Metadata.merge_refused htexts hdistinct hbefore ?_
    rw [MetadataChange.name, hold, resolve_add hname hne]

/-- Where no addition is refused, each name is left with one of its two values. -/
theorem merge_additions (hagree : onDuplicate = .abort → differing source.user held = ∅) :
    ∃ merged, (held.merge onDuplicate.policy (additions onDuplicate source held names)).2 =
        .ok merged ∧
      ∀ name : String, merged.get? (.text name) =
        chosen onDuplicate (source.user.get? (.text name)) (held.get? (.text name)) := by
  have hlisted : Metadata.Listed (additions onDuplicate source held names) :=
    listed_additions hsource hsorted hnames
  rcases Metadata.merge_settles onDuplicate.policy held hlisted.texts hlisted.distinct with
    ⟨⟨change, hchange, hrefused⟩, -⟩ | ⟨-, merged, hmerged, hsettled⟩
  · obtain ⟨habort, name, hname, -⟩ :=
      (refused_additions_iff hsource hnames hchange).1 hrefused
    rw [hagree habort] at hname
    cases hname
  · refine ⟨merged, hmerged, fun name => ?_⟩
    by_cases hkept : source.user.get? (.text name) = none ∨
        onDuplicate = .ignore ∧ held.get? (.text name) ≠ none
    · rw [chosen_of_kept hkept]
      refine hsettled.kept name fun change hchange heq => ?_
      obtain ⟨other, value, rfl, hvalue, hleft⟩ := (mem_additions hsource hnames).1 hchange
      obtain rfl := Cell.text.inj heq
      rcases hkept with hnone | ⟨hignore, hold⟩
      · cases hnone.symm.trans hvalue
      · exact absurd (hleft hignore) hold
    · rw [not_or, not_and, not_not] at hkept
      obtain ⟨hsome, hleft⟩ := hkept
      obtain ⟨value, hvalue⟩ := Option.ne_none_iff_exists'.1 hsome
      obtain ⟨text, rfl⟩ := hsource.user.hasText hvalue
      have hmem : MetadataChange.add (.text name) (.text text) ∈
          additions onDuplicate source held names :=
        (mem_additions hsource hnames).2 ⟨name, text, rfl, hvalue, hleft⟩
      rw [hvalue, chosen_of_new hleft fun habort old hold =>
        eq_of_agree (hagree habort) hold hvalue]
      exact hsettled.changed _ hmem (hlisted.unreserved _ hmem)

/-- The additions that are not skipped are those of the names that are taken. -/
theorem written_additions (hagree : onDuplicate = .abort → differing source.user held = ∅) :
    held.written (additions onDuplicate source held names) =
      taken onDuplicate source.user held := by
  have hlisted : Metadata.Listed (additions onDuplicate source held names) :=
    listed_additions hsource hsorted hnames
  have hvalues : ∀ c ∈ source.user.names, ∃ name value : String, c = .text name ∧
      source.user.get? (.text name) = some (.text value) := by
    intro c hc
    obtain ⟨name, -, rfl⟩ := List.mem_map.1 (hnames.mem_iff.2 hc)
    obtain ⟨value, hvalue⟩ := hsource.user.mem_names_iff.1 hc
    exact ⟨name, value, rfl, hvalue⟩
  rw [Metadata.written_eq_countP hlisted.texts hlisted.distinct, additions, List.countP_filterMap,
    hnames.countP_eq, taken]
  by_cases hoverride : onDuplicate = .override
  · subst hoverride
    rw [if_pos rfl, List.countP_eq_countP_filter_add _ _ fun name => (held.get? name).isNone,
      List.countP_filter, List.countP_filter]
    refine congrArg₂ _ (List.countP_congr fun c hc => ?_) (List.countP_congr fun c hc => ?_)
    · obtain ⟨name, value, rfl, hvalue⟩ := hvalues c hc
      rw [counts_addition hvalue]
      cases held.get? (.text name) <;> simp
    · obtain ⟨name, value, rfl, hvalue⟩ := hvalues c hc
      rw [counts_addition hvalue, hvalue]
      cases held.get? (.text name) <;> simp
  · rw [if_neg hoverride, Nat.add_zero]
    refine List.countP_congr fun c hc => ?_
    obtain ⟨name, value, rfl, hvalue⟩ := hvalues c hc
    rw [counts_addition hvalue]
    cases hold : held.get? (.text name) with
    | none => simp
    | some old =>
        suffices hkept : old ≠ .text value → onDuplicate = .ignore by simpa using hkept
        intro hne
        cases onDuplicate with
        | override => exact absurd rfl hoverride
        | ignore => rfl
        | abort => exact absurd (eq_of_agree (hagree rfl) hold hvalue) hne

end Merge

end Additions

/-! ### Copying into an open destination -/

section Destination

variable {t : Tileset} {file : String} {h : Holding} {s : Session} {onDuplicate : OnDuplicate}
  {source : Metadata} {changes : List MetadataChange}

theorem copyMetadata_run (hs : t.Holds file h s)
    (hchanges : metadataChanges onDuplicate source (.ofTexts h.metadata) = .ok changes) :
    copyMetadata onDuplicate (.ok source) s =
      Tileset.mergeFrom onDuplicate.policy (.ofTexts h.metadata) changes s := by
  have hquery : Action.query Tileset.metadata s = .ok (.ofTexts h.metadata) s :=
    Action.query_ok (by rw [hs.contents]; exact Tileset.metadata_container s.file hs.valid)
  have hread : Action.ofExcept (.ok source) s = .ok source s := rfl
  simp only [copyMetadata, Tileset.merge, bind_apply, hquery, hread, Action.ofExcept_ok hchanges]

theorem copyMetadata_yields (hs : t.Holds file h s) (hsource : source.IsTextMap)
    (hagree : onDuplicate = .abort → differing source.user (.ofTexts h.metadata) = ∅) :
    Yields (copyMetadata onDuplicate (.ok source)) s fun n s' =>
      (n = taken onDuplicate source.user (.ofTexts h.metadata) ∧
        ∃ h', t.Holds file h' s' ∧ Brings onDuplicate source.user h h') ∧
      s'.account = s.account := by
  obtain ⟨names, hchanges, hsorted, hnames⟩ :=
    metadataChanges_texts onDuplicate hsource (.ofTexts h.metadata)
  obtain ⟨merged, hmerged, hget⟩ := merge_additions hsource hsorted hnames hagree
  have hlisted : Metadata.Listed (additions onDuplicate source (.ofTexts h.metadata) names) :=
    listed_additions hsource hsorted hnames
  have hmerge := (Tileset.mergeFrom_spec _ hs h.agrees_ofTexts hlisted.texts).1 merged hmerged
  have haccount : Leaves (copyMetadata onDuplicate (.ok source)) s fun s' =>
      s'.account = s.account :=
    copyMetadata_leaves (fun _ _ hs' => hs')
      (fun name value _ s₁ hs₁ =>
        (Tileset.preserves_putMetadata Session.apart_account name value s₁).mono
          (fun _ _ heq => heq.trans hs₁) fun _ heq => heq.trans hs₁)
      (.ok source) rfl
  refine (Yields.of_run (copyMetadata_run hs hchanges) (hmerge.mono ?_)).and_leaves haccount
  rintro n s' ⟨rfl, h', hs', htiles, -, hagrees⟩
  refine ⟨written_additions hsource hsorted hnames hagree, h', hs', htiles, fun name => ?_⟩
  rw [← hget name, hagrees name, Metadata.get?_ofTexts]

theorem copyMetadata_failsWith (hs : t.Holds file h s) (hsource : source.IsTextMap)
    (hdiffer : (differing source.user (.ofTexts h.metadata)).Nonempty) :
    ∃ fault, FirstConflict source.user (.ofTexts h.metadata) fault ∧
      FailsWith (copyMetadata .abort (.ok source)) s (.fault fault) := by
  obtain ⟨names, hchanges, hsorted, hnames⟩ :=
    metadataChanges_texts .abort hsource (.ofTexts h.metadata)
  obtain ⟨fault, hfirst, hmerge⟩ := merge_additions_conflict hsource hsorted hnames hdiffer
  have hlisted : Metadata.Listed (additions .abort source (.ofTexts h.metadata) names) :=
    listed_additions hsource hsorted hnames
  refine ⟨fault, hfirst, .of_run (copyMetadata_run hs hchanges) ?_⟩
  exact (Tileset.mergeFrom_spec _ hs h.agrees_ofTexts hlisted.texts).2 _ hmerge

variable {options : CopyOptions} {batch : Int} {shape : Shape} {layout : Layout}
  {scan : Scan Tile}

theorem copyInto_metadata (htype : options.copyType = .metadata)
    (metadata : Except Failure Metadata) (scan : Scan Tile) :
    copyInto options batch shape metadata scan =
      destination shape.layout options.layout batch >>= fun _ =>
      copyMetadata options.onDuplicate metadata >>= fun taken =>
      Action.note fun account => { account with metadataChanges := taken } := by
  have hmetadata : options.copyType.copiesMetadata = true := by rw [htype]; rfl
  have htiles : options.copyType.copiesTiles = false := by rw [htype]; rfl
  simp only [copyInto, hmetadata, htiles, if_true, Bool.false_eq_true, if_false, bind_pure_unit]

theorem copyInto_metadata_yields (htype : options.copyType = .metadata)
    (hfinds : Finds s.contents (options.layout.getD shape.layout) layout h)
    (hvalid : h.Valid layout) (hwritable : s.writable = true) (hstart : s.account = .start)
    (hsource : source.IsTextMap) (hagree : options.onDuplicate = .abort →
      differing source.user (.ofTexts h.metadata) = ∅) :
    Yields (copyInto options batch shape (.ok source) scan) s fun _ s' =>
      s'.account = { Account.start with
        metadataChanges := taken options.onDuplicate source.user (.ofTexts h.metadata) } ∧
      ∃ h', s'.contents = layout.container h' ∧ h'.Valid layout ∧
        Brings options.onDuplicate source.user h h' := by
  rw [copyInto_metadata htype]
  refine (destination_spec hfinds hvalid hwritable).bind ?_
  rintro _ s₁ ⟨rfl, hs₁, haccount₁⟩
  refine (copyMetadata_yields hs₁ hsource hagree).bind ?_
  rintro _ s₂ ⟨⟨rfl, h', hs₂, hbrings⟩, haccount₂⟩
  refine (Action.note_spec _ s₂).mono ?_
  rintro _ _ rfl
  refine ⟨?_, h', hs₂.contents, hs₂.valid, hbrings⟩
  simp only [haccount₂, haccount₁, hstart]

theorem copyInto_metadata_failsWith (htype : options.copyType = .metadata)
    (hfinds : Finds s.contents (options.layout.getD shape.layout) layout h)
    (hvalid : h.Valid layout) (hwritable : s.writable = true) (hsource : source.IsTextMap)
    (habort : options.onDuplicate = .abort)
    (hdiffer : (differing source.user (.ofTexts h.metadata)).Nonempty) :
    ∃ fault, FirstConflict source.user (.ofTexts h.metadata) fault ∧
      FailsWith (copyInto options batch shape (.ok source) scan) s (.fault fault) := by
  obtain ⟨t, s₁, hdestination, rfl, hs₁, -⟩ :
      Yields (destination shape.layout options.layout batch) s _ :=
    destination_spec hfinds hvalid hwritable
  obtain ⟨fault, hfirst, hfails⟩ := copyMetadata_failsWith hs₁ hsource hdiffer
  refine ⟨fault, hfirst, ?_⟩
  rw [copyInto_metadata htype, habort]
  refine (Yields.intro hdestination (Q := fun _ s' => s' = s₁) rfl).failsWith_bind ?_
  rintro _ _ rfl
  exact hfails.bind

end Destination

/-! ### The whole copy -/

section Body

variable {options : CopyOptions} {batch : Int} {files : Workspace} {source destination : PathName}
  {place : List String} {layout : Layout} {contents : Container} {sourceMetadata : Metadata}
  {h : Holding}

/-- What a copy of metadata comes down to once the source has been read and the destination is
open. -/
structure Ready (options : CopyOptions) (batch : Int) (files : Workspace)
    (source destination : PathName) (place : List String) (layout : Layout) (contents : Container)
    (sourceMetadata : Metadata) (h : Holding) : Prop where
  texts : sourceMetadata.IsTextMap
  valid : h.Valid layout
  run : ∃ opened shape scan, Finds contents (options.layout.getD shape.layout) layout h ∧
    (∀ after, (opened.set place (.container after)).follow destination =
      .found place (.container after)) ∧
    body options batch source destination (.start files) =
      Operation.work place (.start destination.text true contents)
        (Action.transaction (copyInto options batch shape (.ok sourceMetadata) scan))
        { Job.start files with files := opened }

theorem exists_ready (batch : Int) {sourcePlace : List String} {t : Tileset} {s : Session}
    {sourceTiles held : List Tile} {metadata : Metadata}
    (hsource : files.Shows source sourcePlace t s sourceTiles sourceMetadata)
    (htarget : Target files sourcePlace (options.layout.getD t.shape.layout) destination place
      layout held metadata contents) :
    ∃ h, held = h.sorted ∧ metadata = .ofTexts h.metadata ∧
      Ready options batch files source destination place layout contents sourceMetadata h := by
  obtain ⟨sourceHeld, -, hsourceValid, -, -, htexts⟩ := hsource.holding
  obtain ⟨h, opened, hopen, hfollow, hfinds, hvalid, htiles, hmetadata, -⟩ := htarget.opens
  have hreads : Reads source.text s.contents t.shape 1 sourceTiles := hsource.reads rfl
  refine ⟨h, htiles, hmetadata, ?_, hvalid, opened, t.shape,
    Tileset.scan ⟨t.shape, batch⟩ options.filter source.text s.contents, hfinds, hfollow, ?_⟩
  · rw [htexts]
    exact Metadata.isTextMap_ofTexts hsourceValid.names
  · rw [← hsource.metadata]
    exact body_run (htarget.sameEntry hsource.follow) hsource.follow hreads.detected rfl hopen

theorem Ready.yields (hcopy : Ready options batch files source destination place layout contents
      sourceMetadata h) (htype : options.copyType = .metadata)
    (hagree : options.onDuplicate = .abort →
      differing sourceMetadata.user (.ofTexts h.metadata) = ∅) :
    Yields (body options batch source destination) (.start files) fun _ job =>
      job.account = { Account.start with
        metadataChanges := taken options.onDuplicate sourceMetadata.user (.ofTexts h.metadata) } ∧
      job.details = .none ∧ ∃ h', h'.Valid layout ∧
        Brings options.onDuplicate sourceMetadata.user h h' ∧
        job.files.follow destination = .found place (.container (layout.container h')) := by
  obtain ⟨opened, shape, scan, hfinds, hfollow, hrun⟩ := hcopy.run
  refine .of_run hrun ((Operation.work_yields (Action.transaction_yields rfl
    (copyInto_metadata_yields htype hfinds hcopy.valid rfl rfl hcopy.texts hagree))).mono ?_)
  rintro _ _ ⟨_, ⟨after, ⟨haccount, h', hcontents, hvalid, hbrings⟩, rfl⟩, rfl⟩
  refine ⟨haccount, rfl, h', hvalid, hbrings, ?_⟩
  rw [← hcontents]
  exact hfollow after.contents

theorem Ready.failsWith (hcopy : Ready options batch files source destination place layout contents
      sourceMetadata h) (htype : options.copyType = .metadata)
    (habort : options.onDuplicate = .abort)
    (hdiffer : (differing sourceMetadata.user (.ofTexts h.metadata)).Nonempty) :
    ∃ fault, FirstConflict sourceMetadata.user (.ofTexts h.metadata) fault ∧
      FailsWith (body options batch source destination) (.start files) (.fault fault) := by
  obtain ⟨opened, shape, scan, hfinds, -, hrun⟩ := hcopy.run
  obtain ⟨fault, hfirst, hfails⟩ := copyInto_metadata_failsWith
    (s := { Session.start destination.text true contents with inTransaction := true })
    htype hfinds hcopy.valid rfl hcopy.texts habort hdiffer
  refine ⟨fault, hfirst, .of_run hrun ?_⟩
  exact Operation.work_failsWith (Action.transaction_failsWith rfl hfails)

end Body

end Copy

/-- Copying metadata changes no tile and no reserved name.  If a copy is to be aborted, it fails
where a name has another value in the destination, names the smallest such name, and leaves the
destination as it was.  Otherwise it succeeds, the values of one side are written over those of the
other, and the result tells how many of them were new or replaced another value. -/
theorem copy_metadata {options : CopyOptions} (htype : options.copyType = .metadata) {batch : Int}
    {files : Workspace} {source destination : PathName} {sourcePlace place : List String}
    {t : Tileset} {s : Session} {sourceTiles held : List Tile} {sourceMetadata metadata : Metadata}
    {layout : Layout} {contents : Container}
    (hsource : files.Shows source sourcePlace t s sourceTiles sourceMetadata)
    (htarget : Copy.Target files sourcePlace (options.layout.getD t.shape.layout) destination place
      layout held metadata contents) :
    let user := sourceMetadata.user
    let outcome := copy options batch source destination files
    (options.onDuplicate = .abort → (Copy.differing user metadata).Nonempty →
      ∃ name old new account, IsLeast (Copy.differing user metadata) name ∧
        metadata.get? (.text name) = some old ∧ user.get? (.text name) = some new ∧
        outcome.result =
          .ok ⟨"copy", some (.metadataConflict (.text name) old new), account, .none⟩ ∧
        outcome.files.follow destination = .found place (.container contents)) ∧
    ((options.onDuplicate = .abort → Copy.differing user metadata = ∅) →
      outcome.result = .ok ⟨"copy", none, { Account.start with
        metadataChanges := Copy.taken options.onDuplicate user metadata }, .none⟩ ∧
      ∃ after stored, outcome.files.follow destination = .found place (.container after) ∧
        (∀ batch', -0x80000000 ≤ batch' ∧ batch' < 0x80000000 →
          Reads destination.text after layout.shape batch' held) ∧
        Tileset.metadata destination.text after = .ok stored ∧ stored.IsTextMap ∧
        (∀ name : String, stored.get? (.text name) = Copy.chosen options.onDuplicate
          (user.get? (.text name)) (metadata.get? (.text name))) ∧
        ∀ name : String, isReserved (.text name) = true →
          stored.get? (.text name) = metadata.get? (.text name)) := by
  intro user outcome
  obtain ⟨h, rfl, rfl, hcopy⟩ := Copy.exists_ready batch hsource htarget
  refine ⟨fun habort hdiffer => ?_, fun hagree => ?_⟩
  · obtain ⟨_, ⟨name, old, new, rfl, hleast, hold, hnew⟩, hfails⟩ :=
      hcopy.failsWith htype habort hdiffer
    obtain ⟨account, hresult⟩ := runOperation_failsWith hfails rfl "copy"
    -- there is something to differ from, so the destination is not new
    have hheld : Metadata.ofTexts h.metadata ≠ .empty := fun hempty => by
      rw [hempty] at hold
      cases hold
    have hfollow := htarget.follow hheld
    have hcontains : files.contains destination = true :=
      Workspace.contains_eq_true.2 ⟨place, _, hfollow⟩
    have hout : outcome.result =
        .ok ⟨"copy", some (.metadataConflict (.text name) old new), account, .none⟩ := by
      show (copy options batch source destination files).result = _
      rw [copy, if_pos hcontains]
      exact hresult
    have hfailed : ((Call.copy options batch source destination).run files).succeeded = false := by
      show outcome.succeeded = false
      unfold Outcome.succeeded
      rw [hout]
      rfl
    refine ⟨name, old, new, account, hleast, hold, hnew, hout, ?_⟩
    refine Call.follow_of_failed hfailed (fun path hpath => ?_) hfollow
    rwa [← Option.some.inj hpath]
  · obtain ⟨job, ⟨haccount, hdetails, h', hvalid, hbrings, hfollow⟩, hrun⟩ :=
      runOperation_yields (hcopy.yields htype hagree) "copy"
        (if files.contains destination then none else some destination)
    have hout : outcome = ⟨job.files, job.notices, .ok ⟨"copy", none, job.account, job.details⟩⟩ :=
      hrun
    have hsorted : h'.sorted = h.sorted := congrArg inOrder hbrings.tiles
    rw [hout, haccount, hdetails, ← hsorted]
    refine ⟨rfl, layout.container h', .ofTexts h'.metadata, hfollow, fun batch' hbatch => ?_,
      Tileset.metadata_container destination.text hvalid, Metadata.isTextMap_ofTexts hvalid.names,
      hbrings.values, fun name hname => ?_⟩
    · exact reads_container destination.text hvalid (checkBatch_of_range hbatch)
    · have hnone : user.get? (.text name) = none := by
        rw [Metadata.get?_user, hname, if_pos rfl]
      rw [hbrings.values, Copy.chosen_of_kept (.inl hnone)]

/-- One name has another value in the destination, one is new, and a reserved one is left out. -/
theorem copy_metadata_oneDiffers :
    let sourceEntries := [("name", "x"), (aggHashName, "X"), ("format", "png")]
    let files : Workspace := ⟨[(["a"], .container (Layout.flat.container ⟨[], [], sourceEntries⟩)),
      (["b"], .container (Layout.normalized.container ⟨[], [], [("name", "y")]⟩))]⟩
    let outcome (onDuplicate : OnDuplicate) : Outcome :=
      copy ⟨.all, .metadata, onDuplicate, none⟩ 1000 ⟨["a"]⟩ ⟨["b"]⟩ files
    (∃ account, (outcome .abort).result = .ok ⟨"copy",
        some (.metadataConflict (.text "name") (.text "y") (.text "x")), account, .none⟩) ∧
    (outcome .ignore).result =
      .ok ⟨"copy", none, { Account.start with metadataChanges := 1 }, .none⟩ ∧
    (outcome .override).result =
      .ok ⟨"copy", none, { Account.start with metadataChanges := 2 }, .none⟩ ∧
    ∃ after stored, (outcome .override).files.follow ⟨["b"]⟩ = .found ["b"] (.container after) ∧
      Tileset.metadata "b" after = .ok stored ∧ stored.get? (.text "name") = some (.text "x") ∧
      stored.get? (.text "format") = some (.text "png") ∧
      stored.get? (.text aggHashName) = none := by
  intro sourceEntries files outcome
  have hsource : files.Shows ⟨["a"]⟩ ["a"] ⟨Layout.flat.shape, 1⟩
      { Session.start "a" true .empty with
        contents := Layout.flat.container ⟨[], [], sourceEntries⟩ } []
      (.ofTexts sourceEntries) := by
    have hcreated := Tileset.Reached.start .flat 1 "a"
    have hname := hcreated.succeeded (.putMetadata "name" (some "x")) rfl
    have hhash := hname.succeeded (.putMetadata aggHashName (some "X")) rfl
    exact ⟨hhash.succeeded (.putMetadata "format" (some "png")) rfl, rfl, rfl, rfl⟩
  have hshows : files.Shows ⟨["b"]⟩ ["b"] ⟨Layout.normalized.shape, 1⟩
      { Session.start "b" true .empty with
        contents := Layout.normalized.container ⟨[], [], [("name", "y")]⟩ } []
      (.ofTexts [("name", "y")]) := by
    have hcreated := Tileset.Reached.start .normalized 1 "b"
    exact ⟨hcreated.succeeded (.putMetadata "name" (some "y")) rfl, rfl, rfl, rfl⟩
  have htarget : Copy.Target files ["a"] .flat ⟨["b"]⟩ ["b"] .normalized []
      (.ofTexts [("name", "y")]) (Layout.normalized.container ⟨[], [], [("name", "y")]⟩) :=
    .existing hshows (by decide)
  have hcopy (onDuplicate : OnDuplicate) :=
    @copy_metadata ⟨.all, .metadata, onDuplicate, none⟩ rfl 1000 files ⟨["a"]⟩ ⟨["b"]⟩ _ _ _ _ _ _
      _ _ _ _ hsource htarget
  have hdiffers : "name" ∈ Copy.differing (Metadata.ofTexts sourceEntries).user
      (.ofTexts [("name", "y")]) := ⟨.text "y", .text "x", rfl, rfl, by decide⟩
  obtain ⟨name, old, new, account, -, hold, hnew, habort, -⟩ := (hcopy .abort).1 rfl ⟨_, hdiffers⟩
  obtain rfl : name = "name" := by
    by_contra hne
    rw [Metadata.get?_ofTexts, List.lookup_cons, beq_false_of_ne hne] at hold
    cases hold
  obtain rfl := Option.some.inj hold
  obtain rfl := Option.some.inj hnew
  obtain ⟨hignore, -⟩ := (hcopy .ignore).2 nofun
  obtain ⟨hoverride, after, stored, hfollow, -, hstored, -, hget, -⟩ := (hcopy .override).2 nofun
  exact ⟨⟨account, habort⟩, hignore, hoverride, after, stored, hfollow, hstored, hget "name",
    hget "format", hget aggHashName⟩

/-- A copy onto the source itself is refused, though nothing in it could conflict. -/
theorem not_copy_metadata_ontoItself :
    let contents := Layout.flat.container ⟨[], [], [("name", "x")]⟩
    let files : Workspace := ⟨[(["a"], .container contents)]⟩
    files.Shows ⟨["a"]⟩ ["a"] ⟨Layout.flat.shape, 1⟩
      { Session.start "a" true .empty with contents } [] (.ofTexts [("name", "x")]) ∧
    (copy ⟨.all, .metadata, .override, none⟩ 1000 ⟨["a"]⟩ ⟨["a"]⟩ files).result =
      .ok ⟨"copy", some (.io (.sourceIsDestination "a")), .start, .none⟩ := by
  intro contents files
  refine ⟨⟨?_, rfl, rfl, rfl⟩, rfl⟩
  have hcreated := Tileset.Reached.start .flat 1 "a"
  exact hcreated.succeeded (.putMetadata "name" (some "x")) rfl

end TileAtlas
