import TileAtlas.Metadata.Merge
import TileAtlas.Proofs.Container.Cell

/-!
# Looking up text names

In the tilesets of the library the names and the values of the metadata are texts.  Such a name is
looked up as in any list of pairs, and setting or erasing one name leaves the others alone.
-/

namespace TileAtlas

theorem Cell.same_text_right (c : Cell) (s : String) : c.same (.text s) = decide (c = .text s) := by
  cases c with
  | text t => simp
  | _ => rfl

theorem Cell.eqv_text_left (s : String) (c : Cell) : (text s).eqv c = decide (c = .text s) := by
  cases c with
  | text t => simp [eq_comm]
  | _ => rfl

/-- Looking up a name that is not repeated is finding its entry. -/
theorem lookup_eq_some_iff {β : Type} {entries : List (String × β)}
    (hnames : entries.Pairwise fun a b => a.1 ≠ b.1) {name : String} {value : β} :
    entries.lookup name = some value ↔ (name, value) ∈ entries := by
  induction entries with
  | nil => simp
  | cons entry rest ih =>
      obtain ⟨hfirst, hrest⟩ := List.pairwise_cons.1 hnames
      obtain ⟨key, old⟩ := entry
      by_cases hkey : name = key
      · subst hkey
        have hnot : (name, value) ∉ rest := fun hmem => hfirst (name, value) hmem rfl
        simp [hnot, eq_comm]
      · simp [List.lookup_cons, beq_false_of_ne hkey, ih hrest, hkey]

/-- Whether a change has a text name and, unless it removes the name, a text value. -/
def MetadataChange.IsText (change : MetadataChange) : Prop :=
  ∃ name : String, change = .remove (.text name) ∨
    ∃ value : String, change = .add (.text name) (.text value) ∨
      change = .edit (.text name) (.text value)

theorem MetadataChange.IsText.name_eq {change : MetadataChange} (h : change.IsText) :
    change.name = .text change.name.display := by
  obtain ⟨name, rfl | ⟨value, rfl | rfl⟩⟩ := h <;> rfl

namespace Metadata

variable {m : Metadata} {a b : String} {value : Cell}

theorem get?_cons (entry : Cell × Cell) (rest : List (Cell × Cell)) (name : String) :
    get? ⟨entry :: rest⟩ (.text name) =
      if entry.1 = .text name then some entry.2 else get? ⟨rest⟩ (.text name) := by
  simp only [get?, List.find?_cons, Cell.same_text_right]
  by_cases hentry : entry.1 = .text name <;> simp [hentry]

theorem get?_set (m : Metadata) (a b : String) (value : Cell) :
    (m.set (.text a) value).get? (.text b) = if b = a then some value else m.get? (.text b) := by
  obtain ⟨entries⟩ := m
  induction entries with
  | nil =>
      simp only [set, setIn, get?_cons, Cell.text.injEq, eq_comm (a := a)]
  | cons entry rest ih =>
      obtain ⟨name, old⟩ := entry
      simp only [set, setIn, Cell.same_text_right, decide_eq_true_eq] at ih ⊢
      by_cases hname : name = .text a
      · subst hname
        simp only [if_true, get?_cons, Cell.text.injEq, eq_comm (a := a)]
        by_cases hb : b = a <;> simp [hb]
      · simp only [if_neg hname, get?_cons, ih]
        by_cases hb : b = a
        · simp [hb, hname]
        · simp [hb]

/-- Entries may be left out by their names. -/
theorem get?_filter (m : Metadata) (p : Cell → Bool) (name : String) :
    get? ⟨m.entries.filter fun entry => p entry.1⟩ (.text name) =
      if p (.text name) then m.get? (.text name) else none := by
  obtain ⟨entries⟩ := m
  induction entries with
  | nil => simp [get?]
  | cons entry rest ih =>
      dsimp only at ih ⊢
      cases hentry : p entry.1 with
      | true =>
          rw [List.filter_cons_of_pos (by simp [hentry]), get?_cons, ih, get?_cons]
          by_cases hname : entry.1 = .text name
          · simp [← hname, hentry]
          · simp [hname]
      | false =>
          rw [List.filter_cons_of_neg (by simp [hentry]), ih, get?_cons]
          by_cases hname : entry.1 = .text name
          · simp [← hname, hentry]
          · simp [hname]

theorem get?_erase (m : Metadata) (a b : String) :
    (m.erase (.text a)).get? (.text b) = if b = a then none else m.get? (.text b) := by
  refine (get?_filter m (fun name => !name.same (.text a)) b).trans ?_
  by_cases hb : b = a <;> simp [hb]

/-- The metadata whose names and values are the given texts. -/
def ofTexts (entries : List (String × String)) : Metadata :=
  ⟨entries.map fun entry => (.text entry.1, .text entry.2)⟩

theorem get?_ofTexts (entries : List (String × String)) (name : String) :
    (ofTexts entries).get? (.text name) = (entries.lookup name).map .text := by
  induction entries with
  | nil => rfl
  | cons entry rest ih =>
      obtain ⟨key, value⟩ := entry
      simp only [ofTexts, List.map_cons, get?_cons, Cell.text.injEq] at ih ⊢
      by_cases hkey : key = name
      · simp [hkey]
      · simp [hkey, ih, List.lookup_cons, beq_false_of_ne (Ne.symm hkey)]

theorem set_new {entries : List (Cell × Cell)} {name : String} (value : Cell)
    (hnew : ∀ entry ∈ entries, entry.1 ≠ .text name) :
    set ⟨entries⟩ (.text name) value = ⟨entries ++ [(.text name, value)]⟩ := by
  induction entries with
  | nil => rfl
  | cons entry rest ih =>
      have hrest := ih fun entry hentry => hnew entry (List.mem_cons_of_mem _ hentry)
      have hfirst : entry.1 ≠ .text name := hnew entry (List.mem_cons_self ..)
      simp only [set, setIn, Cell.same_text_right, decide_eq_true_eq, if_neg hfirst,
        Metadata.mk.injEq] at hrest ⊢
      rw [hrest, List.cons_append]

/-- Text names that do not repeat are kept in the order in which they are set. -/
theorem ofEntries_of_pairwise {entries : List (Cell × Cell)}
    (htext : ∀ entry ∈ entries, ∃ name, entry.1 = .text name)
    (hnames : entries.Pairwise fun a b => a.1 ≠ b.1) : ofEntries entries = ⟨entries⟩ := by
  have hfold (done : List (Cell × Cell)) (hdone : ∀ a ∈ done, ∀ b ∈ entries, a.1 ≠ b.1) :
      entries.foldl (fun m entry => m.set entry.1 entry.2) ⟨done⟩ =
        (⟨done ++ entries⟩ : Metadata) := by
    induction entries generalizing done with
    | nil => simp
    | cons entry rest ih =>
        obtain ⟨hfirst, hrest⟩ := List.pairwise_cons.1 hnames
        obtain ⟨name, hname⟩ := htext entry (List.mem_cons_self ..)
        have hset : set ⟨done⟩ entry.1 entry.2 = ⟨done ++ [entry]⟩ := by
          rw [hname, set_new entry.2 fun a ha => hname ▸ hdone a ha entry (List.mem_cons_self ..),
            ← hname]
        rw [List.foldl_cons, hset,
          ih (fun a ha => htext a (List.mem_cons_of_mem _ ha)) hrest, List.append_assoc]
        · rfl
        · intro a ha b hb
          rcases List.mem_append.1 ha with ha | ha
          · exact hdone a ha b (List.mem_cons_of_mem _ hb)
          · obtain rfl := List.mem_singleton.1 ha
            exact hfirst b hb
  exact hfold [] (by simp)

theorem ofEntries_texts {entries : List (String × String)}
    (hnames : entries.Pairwise fun a b => a.1 ≠ b.1) :
    ofEntries (ofTexts entries).entries = ofTexts entries := by
  refine ofEntries_of_pairwise (fun entry hentry => ?_) (List.pairwise_map.2 ?_)
  · obtain ⟨entry, -, rfl⟩ := List.mem_map.1 hentry
    exact ⟨entry.1, rfl⟩
  · exact hnames.imp fun hab heq => hab (Cell.text.inj heq)

end Metadata

end TileAtlas
