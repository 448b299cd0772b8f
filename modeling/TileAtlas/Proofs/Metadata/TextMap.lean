import TileAtlas.Proofs.Metadata.Lookup
import Mathlib.Data.List.Induction
import Mathlib.Data.List.Nodup

/-!
# Maps of texts

Metadata keeps its entries in the order in which their names first appeared, but as a map it is the
entries that count.  Where all names and values are texts and no name repeats, two metadata are the
same map exactly if every name has the same value in both, and changes of texts lead to such
metadata again.
-/

namespace TileAtlas

namespace Metadata

variable {m m' : Metadata} {name : String} {value : Cell}

/-- The same entries in any order. -/
def SameAs (m m' : Metadata) : Prop := m.entries.Perm m'.entries

instance (m m' : Metadata) : Decidable (m.SameAs m') :=
  inferInstanceAs (Decidable (m.entries.Perm m'.entries))

theorem SameAs.trans {m m' m'' : Metadata} (h : m.SameAs m') (h' : m'.SameAs m'') :
    m.SameAs m'' := List.Perm.trans h h'

/-- Whether metadata maps texts to texts. -/
structure IsTextMap (m : Metadata) : Prop where
  texts : ∀ entry ∈ m.entries, ∃ name value : String, entry = (.text name, .text value)
  distinct : m.names.Nodup

theorem isTextMap_ofTexts {entries : List (String × String)}
    (hnames : entries.Pairwise fun a b => a.1 ≠ b.1) : (ofTexts entries).IsTextMap where
  texts entry hentry := by
    obtain ⟨entry, -, rfl⟩ := List.mem_map.1 hentry
    exact ⟨entry.1, entry.2, rfl⟩
  distinct := by
    refine List.pairwise_map.2 (List.pairwise_map.2 (hnames.imp fun hab heq => ?_))
    exact hab (Cell.text.inj heq)

/-- Every map of texts is given by a list of texts. -/
theorem IsTextMap.eq_ofTexts (h : m.IsTextMap) : ∃ entries : List (String × String),
    m = ofTexts entries ∧ entries.Pairwise fun a b => a.1 ≠ b.1 := by
  have hentries : m.entries =
      (m.entries.map fun entry => (entry.1.display, entry.2.display)).map
        fun entry => (Cell.text entry.1, Cell.text entry.2) := by
    rw [List.map_map]
    refine (List.map_id _).symm.trans (List.map_congr_left fun entry hentry => ?_)
    obtain ⟨name, value, rfl⟩ := h.texts entry hentry
    rfl
  have hm : m = ofTexts (m.entries.map fun entry => (entry.1.display, entry.2.display)) :=
    congrArg Metadata.mk hentries
  refine ⟨_, hm, ?_⟩
  have hdistinct := h.distinct
  rw [hm] at hdistinct
  refine (List.pairwise_map.1 (List.pairwise_map.1 hdistinct)).imp fun hab heq => ?_
  exact hab (congrArg Cell.text heq)

theorem IsTextMap.hasText (h : m.IsTextMap) (hvalue : m.get? (.text name) = some value) :
    ∃ text, value = .text text := by
  obtain ⟨entries, rfl, -⟩ := h.eq_ofTexts
  rw [get?_ofTexts] at hvalue
  obtain ⟨text, -, rfl⟩ := Option.map_eq_some_iff.1 hvalue
  exact ⟨text, rfl⟩

theorem IsTextMap.get?_eq_some_iff (h : m.IsTextMap) :
    m.get? (.text name) = some value ↔ (.text name, value) ∈ m.entries := by
  obtain ⟨entries, rfl, hnames⟩ := h.eq_ofTexts
  rw [get?_ofTexts, Option.map_eq_some_iff, ofTexts, List.mem_map]
  constructor
  · rintro ⟨text, htext, rfl⟩
    exact ⟨(name, text), (lookup_eq_some_iff hnames).1 htext, rfl⟩
  · rintro ⟨⟨key, text⟩, hentry, heq⟩
    obtain ⟨rfl, rfl⟩ : key = name ∧ Cell.text text = value := by simpa using heq
    exact ⟨text, (lookup_eq_some_iff hnames).2 hentry, rfl⟩

theorem IsTextMap.mem_names_iff (h : m.IsTextMap) :
    .text name ∈ m.names ↔ ∃ value : String, m.get? (.text name) = some (.text value) := by
  constructor
  · intro hname
    obtain ⟨⟨_, value⟩, hentry, rfl⟩ := List.mem_map.1 hname
    have hget := h.get?_eq_some_iff.2 hentry
    obtain ⟨text, rfl⟩ := h.hasText hget
    exact ⟨text, hget⟩
  · rintro ⟨value, hvalue⟩
    exact List.mem_map.2 ⟨_, h.get?_eq_some_iff.1 hvalue, rfl⟩

/-- Maps of texts are the same if every name has the same value in both. -/
theorem IsTextMap.sameAs_iff (h : m.IsTextMap) (h' : m'.IsTextMap) :
    m.SameAs m' ↔ ∀ name : String, m.get? (.text name) = m'.get? (.text name) := by
  have hnodup {m : Metadata} (h : m.IsTextMap) : m.entries.Nodup := h.distinct.of_map
  constructor
  · intro hsame name
    refine Option.ext fun value => ?_
    rw [h.get?_eq_some_iff, h'.get?_eq_some_iff, hsame.mem_iff]
  · intro hget
    refine (List.perm_ext_iff_of_nodup (hnodup h) (hnodup h')).2 fun entry => ?_
    have hentry {m : Metadata} (h : m.IsTextMap) (hmem : entry ∈ m.entries) :
        ∃ name, entry = (.text name, entry.2) := by
      obtain ⟨name, value, rfl⟩ := h.texts entry hmem
      exact ⟨name, rfl⟩
    constructor
    · intro hmem
      obtain ⟨name, heq⟩ := hentry h hmem
      rw [heq, ← h'.get?_eq_some_iff, ← hget, h.get?_eq_some_iff, ← heq]
      exact hmem
    · intro hmem
      obtain ⟨name, heq⟩ := hentry h' hmem
      rw [heq, ← h.get?_eq_some_iff, hget, h'.get?_eq_some_iff, ← heq]
      exact hmem

/-! ### Changing a map -/

theorem setIn_names (entries : List (Cell × Cell)) (name : String) (value : Cell) :
    (setIn (.text name) value entries).map (·.1) =
      if .text name ∈ entries.map (·.1) then entries.map (·.1)
      else entries.map (·.1) ++ [.text name] := by
  induction entries with
  | nil => simp [setIn]
  | cons entry rest ih =>
      by_cases hentry : entry.1 = .text name
      · simp [setIn, hentry]
      · rw [setIn, Cell.same_text_right, decide_eq_false hentry, if_neg Bool.false_ne_true,
          List.map_cons, ih]
        by_cases hrest : .text name ∈ rest.map (·.1)
        · simp [hrest, Ne.symm hentry]
        · simp [hrest, Ne.symm hentry]

theorem mem_setIn {entries : List (Cell × Cell)} {entry : Cell × Cell}
    (h : entry ∈ setIn (.text name) value entries) :
    entry ∈ entries ∨ entry = (.text name, value) := by
  induction entries with
  | nil => exact .inr (List.mem_singleton.1 h)
  | cons first rest ih =>
      rw [setIn, Cell.same_text_right] at h
      by_cases hfirst : first.1 = .text name
      · rw [decide_eq_true hfirst, if_pos rfl, hfirst] at h
        rcases List.mem_cons.1 h with rfl | h
        · exact .inr rfl
        · exact .inl (List.mem_cons_of_mem _ h)
      · rw [decide_eq_false hfirst, if_neg Bool.false_ne_true] at h
        rcases List.mem_cons.1 h with rfl | h
        · exact .inl (List.mem_cons_self ..)
        · exact (ih h).imp_left (List.mem_cons_of_mem _)

theorem IsTextMap.set (h : m.IsTextMap) (name value : String) :
    (m.set (.text name) (.text value)).IsTextMap where
  texts entry hentry := by
    rcases mem_setIn hentry with hentry | rfl
    · exact h.texts entry hentry
    · exact ⟨name, value, rfl⟩
  distinct := by
    show ((setIn (.text name) (.text value) m.entries).map (·.1)).Nodup
    rw [setIn_names]
    split
    · exact h.distinct
    next hnew =>
      refine List.nodup_append.2 ⟨h.distinct, List.nodup_singleton _, ?_⟩
      intro a ha b hb heq
      rw [heq, List.mem_singleton.1 hb] at ha
      exact hnew ha

theorem IsTextMap.filter (h : m.IsTextMap) (p : Cell × Cell → Bool) :
    (⟨m.entries.filter p⟩ : Metadata).IsTextMap where
  texts entry hentry := h.texts entry (List.mem_of_mem_filter hentry)
  distinct := h.distinct.sublist (List.filter_sublist.map _)

theorem IsTextMap.erase (h : m.IsTextMap) (name : Cell) : (m.erase name).IsTextMap := h.filter _

theorem IsTextMap.user (h : m.IsTextMap) : m.user.IsTextMap := h.filter _

theorem IsTextMap.applyTo (h : m.IsTextMap) {change : MetadataChange} (hchange : change.IsText) :
    (change.applyTo m).IsTextMap := by
  obtain ⟨name, rfl | ⟨value, rfl | rfl⟩⟩ := hchange
  · exact h.erase _
  · exact h.set name value
  · exact h.set name value

/-- Merging changes of texts into a map of texts gives such a map. -/
theorem IsTextMap.merge {policy : MergePolicy} {changes : List MetadataChange} (h : m.IsTextMap)
    (hchanges : ∀ change ∈ changes, change.IsText) (hmerged : (m.merge policy changes).2 = .ok m') :
    m'.IsTextMap := by
  induction changes generalizing m with
  | nil =>
      obtain rfl := Except.ok.inj hmerged
      exact h
  | cons change rest ih =>
      have hrest : ∀ change ∈ rest, change.IsText := fun c hc =>
        hchanges c (List.mem_cons_of_mem _ hc)
      rw [Metadata.merge] at hmerged
      cases hresolve : change.resolve policy (m.get? change.name) with
      | error fault =>
          rw [hresolve] at hmerged
          cases hmerged
      | ok taken =>
          rw [hresolve] at hmerged
          cases taken with
          | false => exact ih h hrest hmerged
          | true => exact ih (h.applyTo (hchanges change (List.mem_cons_self ..))) hrest hmerged

end Metadata

end TileAtlas
