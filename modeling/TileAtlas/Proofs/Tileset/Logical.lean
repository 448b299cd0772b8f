import TileAtlas.Proofs.Container.Attempt
import TileAtlas.Proofs.Patch.Apply
import TileAtlas.Proofs.Tileset.Reached
import TileAtlas.Proofs.Tileset.Shown
import Std.Data.ExtTreeMap
import Mathlib.Order.Compare

/-!
# One logical map in three layouts

What a tileset holds is two finite maps: payloads by key, where a null tile is a key without a
payload, and values by name.  The store operations are insertions and erasures in these maps, and in
every layout all that is read afterwards is what the maps say.  The images of a normalized container
and the order in which tiles have been put are nowhere to be seen.
-/

namespace TileAtlas

/-! ### Finite maps -/

/-- The contents of a tileset as finite maps. -/
structure Content where
  /-- The payload at every key that has a tile; a null tile has none. -/
  tiles : Std.ExtTreeMap TileKey (Option Bytes)
  metadata : Std.ExtTreeMap String String

/-- What a store operation answers. -/
inductive StoreAnswer
  | done
  | deleted (found : Bool)
  | dropped (images : Nat)
  deriving DecidableEq

namespace StoreAnswer

/-- Whether there was a tile to delete, for a deletion. -/
def found? : StoreAnswer → Option Bool
  | deleted found => some found
  | _ => none

end StoreAnswer

def StoreOperation.answer (t : Tileset) : StoreOperation → Action StoreAnswer
  | put key data => do
    t.put key data
    return .done
  | delete key => do
    let found ← t.delete key
    return .deleted found
  | finalize => do
    let images ← t.finalize
    return .dropped images
  | putMetadata name value => do
    Tileset.putMetadata (.text name) (.ofText? value)
    return .done

namespace Content

def empty : Content := ⟨∅, ∅⟩

/-- The tiles in ascending order of keys. -/
def list (c : Content) : List Tile := c.tiles.toList.map fun entry => ⟨entry.1, entry.2⟩

def entry? (c : Content) (key : TileKey) : Option Tile := c.tiles[key]?.map fun data => ⟨key, data⟩

/-- What a store operation does to the maps. -/
def step (c : Content) : StoreOperation → Content
  | .put key data => { c with tiles := c.tiles.insert key data }
  | .delete key => { c with tiles := c.tiles.erase key }
  | .finalize => c
  | .putMetadata name none => { c with metadata := c.metadata.erase name }
  | .putMetadata name (some value) => { c with metadata := c.metadata.insert name value }

def run (c : Content) (operations : List StoreOperation) : Content := operations.foldl step c

/-- Whether a store operation finds a tile to delete; a key that no container can hold is refused
when it is looked for. -/
def answer (c : Content) : StoreOperation → Except Failure (Option Bool)
  | .delete key =>
    if key.cells.all Cell.fits then .ok (some (c.tiles.contains key)) else .error .outOfRange
  | _ => .ok none

def answers (c : Content) : List StoreOperation → List (Except Failure (Option Bool))
  | [] => []
  | operation :: rest => c.answer operation :: (c.step operation).answers rest

variable {c : Content}

theorem mem_list {tile : Tile} : tile ∈ c.list ↔ c.tiles[tile.key]? = some tile.data := by
  rw [← Std.ExtTreeMap.mem_toList_iff_getElem?_eq_some, list, List.mem_map]
  constructor
  · rintro ⟨entry, hentry, rfl⟩
    exact hentry
  · exact fun htile => ⟨_, htile, rfl⟩

theorem ascending_list (c : Content) : Ascending c.list :=
  List.pairwise_map.2 (c.tiles.ordered_keys_toList.imp fun hlt => compare_lt_iff_lt.1 hlt)

theorem length_list : c.list.length = c.tiles.size := by
  rw [list, List.length_map, Std.ExtTreeMap.length_toList]

end Content

/-! ### Holdings and finite maps -/

/-- Whether a holding has the tiles and the metadata of finite maps. -/
structure Holding.Keeps (h : Holding) (c : Content) : Prop where
  tiles : ∀ tile, tile ∈ h.tiles ↔ c.tiles[tile.key]? = some tile.data
  metadata : ∀ name : String, h.metadata.lookup name = c.metadata[name]?

namespace Holding.Keeps

variable {h h' : Holding} {c : Content} {key : TileKey}

theorem empty : Holding.empty.Keeps .empty :=
  ⟨by simp [Holding.empty, Content.empty], by simp [Holding.empty, Content.empty]⟩

theorem put {data : Option Bytes} (hc : h.Keeps c)
    (htiles : h'.tiles = (h.delete key).tiles ++ [⟨key, data⟩])
    (hmetadata : h'.metadata = h.metadata) : h'.Keeps (c.step (.put key data)) := by
  refine ⟨fun tile => ?_, fun name => hmetadata ▸ hc.metadata name⟩
  rw [htiles, List.mem_append, Holding.mem_delete, List.mem_singleton, hc.tiles]
  obtain ⟨other, old⟩ := tile
  by_cases hother : key = other
  · subst hother
    simp [Content.step, eq_comm]
  · simp [Content.step, Std.ExtTreeMap.getElem?_insert, hother, Ne.symm hother]

theorem delete (hc : h.Keeps c) (key : TileKey) : (h.delete key).Keeps (c.step (.delete key)) := by
  refine ⟨fun tile => ?_, hc.metadata⟩
  rw [Holding.mem_delete, hc.tiles]
  by_cases hkey : key = tile.key
  · subst hkey
    simp [Content.step]
  · simp [Content.step, Std.ExtTreeMap.getElem?_erase, hkey, Ne.symm hkey]

theorem finalize (hc : h.Keeps c) : h.finalize.Keeps (c.step .finalize) := ⟨hc.tiles, hc.metadata⟩

theorem putMetadata (hc : h.Keeps c) (name : String) (value : Option String) :
    (h.putMetadata name value).Keeps (c.step (.putMetadata name value)) := by
  have hstep : (c.step (.putMetadata name value)).tiles = c.tiles := by cases value <;> rfl
  refine ⟨fun tile => hstep ▸ hc.tiles tile, fun other => ?_⟩
  rw [Holding.lookup_putMetadata, hc.metadata]
  by_cases hother : other = name
  · subst hother
    cases value <;> simp [Content.step]
  · have hcompare : compare name other ≠ .eq := fun heq =>
      hother (Std.compare_eq_iff_eq.1 heq).symm
    cases value <;>
      simp [Content.step, Std.ExtTreeMap.getElem?_erase, Std.ExtTreeMap.getElem?_insert, hother,
        hcompare]

end Holding.Keeps

namespace Holding

variable {h : Holding} {layout : Layout} {c : Content}

theorem Keeps.contains_eq (hc : h.Keeps c) (key : TileKey) :
    c.tiles.contains key = h.tiles.any fun tile => tile.key = key := by
  rw [Bool.eq_iff_iff, Std.ExtTreeMap.contains_eq_isSome_getElem?, List.any_eq_true]
  constructor
  · intro hsome
    obtain ⟨data, hdata⟩ := Option.isSome_iff_exists.1 hsome
    exact ⟨⟨key, data⟩, (hc.tiles ⟨key, data⟩).2 hdata, decide_eq_true rfl⟩
  · rintro ⟨tile, htile, hkey⟩
    rw [← of_decide_eq_true hkey, (hc.tiles tile).1 htile]
    rfl

theorem Keeps.sorted_eq (hc : h.Keeps c) (hvalid : h.Valid layout) : h.sorted = c.list := by
  refine (ascending_inOrder hvalid.keys).ext c.ascending_list fun tile => ?_
  rw [mem_inOrder, hc.tiles, Content.mem_list]

theorem Keeps.tiles_perm (hc : h.Keeps c) (hvalid : h.Valid layout) : h.tiles.Perm c.list := by
  rw [← hc.sorted_eq hvalid]
  exact (sortBy_perm _ h.tiles).symm

theorem Keeps.entry?_eq (hc : h.Keeps c) (key : TileKey) :
    h.tiles.find? (fun tile => tile.key = key) = c.entry? key := by
  rw [Content.entry?]
  cases htile : h.tiles.find? fun tile => tile.key = key with
  | none =>
      cases hdata : c.tiles[key]? with
      | none => rfl
      | some data =>
          have hmem := (hc.tiles ⟨key, data⟩).2 hdata
          exact absurd (rfl : key = key) (by simpa using List.find?_eq_none.1 htile _ hmem)
  | some tile =>
      obtain rfl : tile.key = key := by simpa using List.find?_some htile
      rw [(hc.tiles tile).1 (List.mem_of_find?_eq_some htile)]
      rfl

theorem Valid.delete_of_unfit (hvalid : h.Valid layout) {key : TileKey}
    (hkey : key.cells.all Cell.fits = false) : h.delete key = h := by
  have hall : h.tiles.filter (fun tile => !decide (tile.key = key)) = h.tiles := by
    refine List.filter_eq_self.2 fun tile htile => ?_
    have hne : tile.key ≠ key := fun heq => by simp [← heq, hvalid.fits tile htile] at hkey
    simpa using hne
  rw [Holding.delete, hall]

theorem Keeps.metadata_perm (hc : h.Keeps c) (hvalid : h.Valid layout) :
    h.metadata.Perm c.metadata.toList := by
  have hnodup {entries : List (String × String)}
      (hnames : entries.Pairwise fun a b => a.1 ≠ b.1) : entries.Nodup :=
    hnames.imp fun hab heq => hab (congrArg Prod.fst heq)
  have hlisted : c.metadata.toList.Pairwise fun a b => a.1 ≠ b.1 :=
    c.metadata.distinct_keys_toList.imp fun hne => mt Std.compare_eq_iff_eq.2 hne
  refine (List.perm_ext_iff_of_nodup (hnodup hvalid.names) (hnodup hlisted)).2 fun entry => ?_
  obtain ⟨name, value⟩ := entry
  rw [Std.ExtTreeMap.mem_toList_iff_getElem?_eq_some, ← hc.metadata,
    lookup_eq_some_iff hvalid.names]

end Holding

/-- What is read of an open tileset whose contents are finite maps. -/
structure Tileset.ReadsAs (t : Tileset) (s : Session) (c : Content) : Prop where
  scan : t.scan .all s.file s.contents = .ofList c.list
  ascending : Ascending c.list
  entry : ∀ key, t.entry? key s.file s.contents =
    if key.cells.all Cell.fits then .ok (c.entry? key) else .error .outOfRange
  count : t.count s.file s.contents = .ok c.tiles.size
  isEmpty : t.isEmpty s.file s.contents = .ok c.tiles.isEmpty
  aggregate : t.aggregate s.file s.contents = .ok (aggregateHash c.list)
  metadata : ∃ m, Tileset.metadata s.file s.contents = .ok m ∧
    m.entries.Perm (Metadata.ofTexts c.metadata.toList).entries
  metadataValue : ∀ name : String,
    Tileset.metadataValue? (.text name) s.file s.contents = .ok c.metadata[name]?

theorem Tileset.ReadsAs.payload {t : Tileset} {s : Session} {c : Content} (hs : t.ReadsAs s c)
    (key : TileKey) : (t.entry? key s.file s.contents).map (·.bind Tile.data) =
      if key.cells.all Cell.fits then .ok c.tiles[key]?.join else .error .outOfRange := by
  rw [hs.entry key]
  split
  · cases hdata : c.tiles[key]? <;> simp [Except.map, Content.entry?, hdata]
  · rfl

namespace Tileset

variable {t : Tileset} {file : String} {h : Holding} {c : Content} {s : Session} {P : Set Bytes}

/-- Whether an open tileset holds what finite maps say, with images among some payloads only. -/
def Follows (t : Tileset) (file : String) (P : Set Bytes) (c : Content) (s : Session) : Prop :=
  ∃ h, t.Holds file h s ∧ (∀ image ∈ h.images, image ∈ P) ∧ h.Keeps c

theorem Holds.readsAs (hs : t.Holds file h s) (hbatch : checkBatch t.batch = .ok ())
    (hc : h.Keeps c) : t.ReadsAs s c := by
  have hperm := hc.tiles_perm hs.valid
  have hentries (key : TileKey) (hkey : key.cells.all Cell.fits = true) :
      t.entry? key s.file s.contents = .ok (c.entry? key) := by
    rw [hs.contents, tileAt_container s.file hs.valid hkey, hc.entry?_eq]
  refine ⟨?_, c.ascending_list, fun key => ?_, ?_, ?_, ?_, ⟨.ofTexts h.metadata, ?_, ?_⟩, fun name => ?_⟩
  · rw [hs.contents, scan_container s.file hs.valid hbatch, hc.sorted_eq hs.valid]
  · cases hkey : key.cells.all Cell.fits with
    | true => exact hentries key hkey
    | false =>
        rw [hs.contents, tileAt_error s.file hs.valid hkey]
        rfl
  · rw [hs.contents, count_container s.file hs.valid, hperm.length_eq, Content.length_list]
  · rw [hs.contents, isEmpty_container, hperm.isEmpty_eq, Content.list, List.isEmpty_map,
      Std.ExtTreeMap.isEmpty_toList]
  · rw [hs.contents, aggregate_container s.file hs.valid hbatch, hc.sorted_eq hs.valid]
  · rw [hs.contents, metadata_container s.file hs.valid]
  · exact (hc.metadata_perm hs.valid).map _
  · rw [hs.contents, metadataValue_container _ hs.valid, hc.metadata]

end Tileset

/-- Whether a store operation can be carried out and puts some payloads only. -/
def StoreOperation.Within (P : Set Bytes) : StoreOperation → Prop
  | put key data => key.cells.all Cell.fits = true ∧ ∀ bytes ∈ data, bytes ∈ P
  | _ => True

namespace Tileset

variable {t : Tileset} {file : String} {c : Content} {s : Session} {P : Set Bytes}

/-- Store operations do to a tileset what they do to the maps, and answer as the maps do. -/
theorem Follows.attempt (hs : t.Follows file P c s) (hbatch : checkBatch t.batch = .ok ())
    (hP : Set.InjOn payloadHash P) {operation : StoreOperation} (hwithin : operation.Within P) :
    (Action.attempt (operation.answer t) s).1.map StoreAnswer.found? = c.answer operation ∧
      t.Follows file P (c.step operation) (Action.attempt (operation.answer t) s).2 := by
  obtain ⟨h, hs, himages, hc⟩ := hs
  have hyields {found : Option Bool} (h : Yields (operation.answer t) s fun answer s' =>
      answer.found? = found ∧ t.Follows file P (c.step operation) s') :
      (Action.attempt (operation.answer t) s).1.map StoreAnswer.found? = .ok found ∧
        t.Follows file P (c.step operation) (Action.attempt (operation.answer t) s).2 := by
    obtain ⟨answer, s', hok, hfound, hs'⟩ := h
    rw [Action.attempt_ok hok]
    exact ⟨congrArg Except.ok hfound, hs'⟩
  cases operation with
  | put key data =>
      obtain ⟨hkey, hdata⟩ := hwithin
      have hput := put_advances hP himages t.shape.layout key hdata
      exact hyields ((put_spec hs hkey data hbatch).bind fun _ s' hs' =>
        .pure ⟨rfl, _, hs', hput.images, hc.put hput.tiles_eq hput.metadata_eq⟩)
  | delete key =>
      cases hkey : key.cells.all Cell.fits with
      | true =>
          rw [Content.answer, if_pos hkey, hc.contains_eq]
          exact hyields ((delete_answer hs hkey).bind fun found s' ⟨hfound, hs'⟩ =>
            .pure ⟨congrArg some hfound, _, hs', himages, hc.delete key⟩)
      | false =>
          -- a key that does not fit is nowhere in the maps, and erasing it changes nothing
          have hnone : h.delete key = h := hs.valid.delete_of_unfit hkey
          have herror : (StoreOperation.delete key).answer t s = .error .outOfRange s := by
            simp only [StoreOperation.answer, bind_apply, delete_unfit hs hkey]
          rw [Action.attempt_error herror, Content.answer, if_neg (by simp [hkey])]
          exact ⟨rfl, h, hs, himages, hnone ▸ hc.delete key⟩
  | finalize =>
      exact hyields ((finalize_spec hs).bind fun images s' hs' =>
        .pure ⟨rfl, _, hs', fun image himage => himages image (List.mem_filter.1 himage).1,
          hc.finalize⟩)
  | putMetadata name value =>
      exact hyields ((putMetadata_spec hs name value).bind fun _ s' hs' =>
        .pure ⟨rfl, _, hs', himages, hc.putMetadata name value⟩)

theorem Follows.attemptAll (hs : t.Follows file P c s) (hbatch : checkBatch t.batch = .ok ())
    (hP : Set.InjOn payloadHash P) {operations : List StoreOperation}
    (hwithin : ∀ operation ∈ operations, operation.Within P) :
    let attempted := Action.attemptAll (operations.map (·.answer t)) s
    attempted.1.map (·.map StoreAnswer.found?) = c.answers operations ∧
      t.Follows file P (c.run operations) attempted.2 := by
  induction operations generalizing c s with
  | nil => exact ⟨rfl, hs⟩
  | cons operation rest ih =>
      obtain ⟨hanswer, hs'⟩ := hs.attempt hbatch hP (hwithin operation (List.mem_cons_self ..))
      obtain ⟨hanswers, hs''⟩ := ih hs' fun other hother =>
        hwithin other (List.mem_cons_of_mem _ hother)
      exact ⟨by rw [Content.answers, ← hanswer, ← hanswers]; rfl, hs''⟩

end Tileset

/-- In every layout, store operations on a new tileset answer as the same operations on finite maps
do, and after each of them the tileset reads as these maps. -/
theorem Layout.createIn_readsAs (layout : Layout) {batch : Int}
    (hbatch : -0x80000000 ≤ batch ∧ batch < 0x80000000) {s : Session} (hempty : s.contents = .empty)
    (hwritable : s.writable = true) {operations : List StoreOperation}
    (hkeys : ∀ key data, .put key data ∈ operations → key.cells.all Cell.fits = true)
    (hhash : Set.InjOn payloadHash {data | ∃ key, .put key (some data) ∈ operations}) :
    ∃ t s₀, Tileset.createIn layout batch s = .ok t s₀ ∧ t.shape = layout.shape ∧
      ∀ taken, taken <+: operations →
        let attempted := Action.attemptAll (taken.map (·.answer t)) s₀
        attempted.1.map (·.map StoreAnswer.found?) = Content.empty.answers taken ∧
          t.ReadsAs attempted.2 (Content.empty.run taken) := by
  obtain ⟨t, s₀, hcreate, rfl, hs⟩ := Tileset.createIn_spec layout batch hempty hwritable
  have hcheck : Tileset.checkBatch batch = .ok () := if_pos hbatch
  refine ⟨_, s₀, hcreate, rfl, fun taken htaken => ?_⟩
  have hwithin : ∀ operation ∈ taken, operation.Within
      {data | ∃ key, .put key (some data) ∈ operations} := by
    intro operation hoperation
    have hmem := htaken.subset hoperation
    cases operation with
    | put key data =>
        refine ⟨hkeys key data hmem, fun bytes hbytes => ⟨key, ?_⟩⟩
        rwa [← Option.mem_def.1 hbytes]
    | _ => trivial
  obtain ⟨hanswers, h, hs', -, hc⟩ := Tileset.Follows.attemptAll
    ⟨.empty, hs, by simp [Holding.empty], .empty⟩ hcheck hhash hwithin
  exact ⟨hanswers, hs'.readsAs hcheck hc⟩

/-- One of two tiles with the same payload is deleted, and the other one stays. -/
theorem Layout.createIn_readsAs_shared :
    let image : Bytes := ⟨#[7]⟩
    let operations : List StoreOperation := [.put ⟨1, 0, 1⟩ (some image),
      .put ⟨0, 0, 0⟩ (some image), .delete ⟨1, 0, 1⟩, .finalize, .putMetadata "name" (some "sea")]
    ∃ t s₀, Tileset.createIn .normalized 1 (.start "a" true .empty) = .ok t s₀ ∧
      let attempted := Action.attemptAll (operations.map (·.answer t)) s₀
      attempted.1.map (·.map StoreAnswer.found?) =
        [.ok none, .ok none, .ok (some true), .ok none, .ok none] ∧
      t.scan .all attempted.2.file attempted.2.contents =
        .ofList [⟨⟨0, 0, 0⟩, some image⟩] ∧
      Tileset.metadataValue? (.text "name") attempted.2.file attempted.2.contents =
        .ok (some "sea") := by
  intro image operations
  have hkeys : ∀ key data, StoreOperation.put key data ∈ operations →
      key.cells.all Cell.fits = true := by
    intro key data hput
    simp only [operations, List.mem_cons, StoreOperation.put.injEq, reduceCtorEq,
      List.not_mem_nil, or_false] at hput
    rcases hput with ⟨rfl, -⟩ | ⟨rfl, -⟩ <;> decide
  have honly : ∀ data ∈ {data | ∃ key, StoreOperation.put key (some data) ∈ operations},
      data = image := by
    rintro data ⟨key, hput⟩
    simp only [operations, List.mem_cons, StoreOperation.put.injEq, reduceCtorEq,
      List.not_mem_nil, or_false, Option.some.injEq] at hput
    rcases hput with ⟨-, rfl⟩ | ⟨-, rfl⟩ <;> rfl
  have hbatch : -0x80000000 ≤ (1 : Int) ∧ (1 : Int) < 0x80000000 := by decide
  have hempty : (Session.start "a" true .empty).contents = .empty := rfl
  obtain ⟨t, s₀, hcreate, -, hreads⟩ := Layout.createIn_readsAs .normalized hbatch hempty rfl hkeys
    (fun a ha b hb _ => (honly a ha).trans (honly b hb).symm)
  obtain ⟨hanswers, hread⟩ := hreads operations (List.prefix_refl _)
  exact ⟨t, s₀, hcreate, hanswers, hread.scan, hread.metadataValue "name"⟩

/-- A key that is no machine integer is refused when it is looked up, where the maps have no tile;
and with a number of rows to fetch that is no machine integer, payloads are put in a plain container
but not in a normalized one. -/
theorem Layout.not_createIn_readsAs :
    let opened (layout : Layout) : Session :=
      { Session.start "a" true .empty with contents := layout.container .empty }
    let operation : StoreOperation := .put ⟨0, 0, 0⟩ (some ⟨#[7]⟩)
    let put (layout : Layout) :=
      Action.attempt (operation.answer ⟨layout.shape, 0x80000000⟩) (opened layout)
    (∀ layout : Layout, ∀ batch, Tileset.createIn layout batch (.start "a" true .empty) =
      .ok ⟨layout.shape, batch⟩ (opened layout)) ∧
    Content.empty.entry? ⟨0x8000000000000000, 0, 0⟩ = none ∧
    (∀ layout : Layout, Tileset.entry? ⟨layout.shape, 1⟩ ⟨0x8000000000000000, 0, 0⟩ "a"
      (opened layout).contents = .error .outOfRange) ∧
    Content.empty.answer operation = .ok none ∧
    (put .flat).1 = .ok .done ∧ (put .normalized).1 = .error .outOfRange := by
  intro opened operation put
  refine ⟨fun layout batch => ?_, rfl, fun layout => ?_, rfl, rfl, rfl⟩
  · cases layout <;> rfl
  · cases layout <;> rfl

end TileAtlas
