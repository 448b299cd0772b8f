import TileAtlas.Proofs.Container.Rollback
import TileAtlas.Proofs.Tileset.Filtered
import TileAtlas.Proofs.Tileset.ForeignMetadata
import TileAtlas.Proofs.Tileset.Sound
import TileAtlas.Proofs.Tileset.Unreferenced

/-!
# What validation decides

A container of any origin can be validated if the rows that its layout shows are tiles.  The tiles
are looked at in order, and the first one whose stored hash is not that of its payload ends the
validation; then the stored aggregate hash is left alone, compared or replaced.  Each way in which
this ends is a constructor of `Validates`, from which everything else is read off.
-/

namespace TileAtlas

open TileAtlas.Action

/-! ### Tiles with their stored hashes -/

namespace TileRow

/-- Whether a row shows a tile: its key is made of natural numbers, its payload is a byte string or
null, and its hash a text or null. -/
structure Shows (row : TileRow) : Prop where
  key : ∃ key, row.key? = some key
  data : ∃ data, row.data = .ofPayload data
  stored : ∃ hash, row.stored = .ofText? hash

/-- The tile and the hash that a row shows. -/
def entry (row : TileRow) : Tile × Option String :=
  (⟨row.key?.getD default, match row.data with
    | .blob data => some data
    | _ => none⟩, match row.stored with
    | .text hash => some hash
    | _ => none)

variable {row : TileRow} {file : String}

theorem Shows.entry_eq (h : row.Shows) : row.key? = some row.entry.1.key ∧
    row.data = .ofPayload row.entry.1.data ∧ row.stored = .ofText? row.entry.2 := by
  obtain ⟨⟨key, hkey⟩, ⟨data, hdata⟩, ⟨hash, hhash⟩⟩ := h
  refine ⟨?_, ?_, ?_⟩
  · simp [entry, hkey]
  · cases data <;> simp [entry, hdata, Cell.ofPayload]
  · cases hash <;> simp [entry, hhash, Cell.ofText?]

theorem shows_iff : row.Shows ↔ row.key?.isSome ∧ row.data = .ofPayload row.entry.1.data ∧
    row.stored = .ofText? row.entry.2 := by
  constructor
  · intro h
    obtain ⟨hkey, hdata, hstored⟩ := h.entry_eq
    exact ⟨by rw [hkey, Option.isSome_some], hdata, hstored⟩
  · rintro ⟨hkey, hdata, hstored⟩
    exact ⟨Option.isSome_iff_exists.1 hkey, ⟨_, hdata⟩, ⟨_, hstored⟩⟩

instance : Decidable row.Shows := decidable_of_iff _ shows_iff.symm

theorem Shows.rowKey_eq (h : row.Shows) : Tileset.rowKey file row = .ok row.entry.1.key := by
  have hkey := h.entry_eq.1
  rw [key?] at hkey
  rw [Tileset.rowKey, hkey]

theorem Shows.readHashedTile (h : row.Shows) (memory : Nat) :
    Tileset.readHashedTile memory file row = .ok (some (row.entry.1, .ofText? row.entry.2)) := by
  obtain ⟨-, hdata, hstored⟩ := h.entry_eq
  simp only [Tileset.readHashedTile, h.rowKey_eq, hdata, payload_ofPayload, hstored, bind,
    Except.bind]
  rfl

theorem Shows.readTile (h : row.Shows) (memory : Nat) :
    Tileset.readTile memory .all file row = .ok (some row.entry.1) := by
  obtain ⟨-, hdata, -⟩ := h.entry_eq
  have hall : Tileset.acceptsArea .all row.entry.1.key = .ok true := rfl
  simp only [Tileset.readTile, h.rowKey_eq, hall, hdata, payload_ofPayload, bind, Except.bind]
  rfl

end TileRow

/-- Whether all rows that a layout shows are tiles. -/
def Layout.ShowsTiles (layout : Layout) (c : Container) : Prop :=
  ∀ rows, layout.rows c = .ok rows → ∀ row ∈ rows, row.Shows

theorem Layout.showsTiles_iff {layout : Layout} {c : Container} :
    layout.ShowsTiles c ↔ ∀ rows ∈ (layout.rows c).toOption, ∀ row ∈ rows, row.Shows := by
  unfold ShowsTiles
  cases layout.rows c with
  | error why => simp [Except.toOption]
  | ok rows => simp [Except.toOption]

instance (layout : Layout) (c : Container) : Decidable (layout.ShowsTiles c) :=
  decidable_of_iff _ Layout.showsTiles_iff.symm

/-- A tile with the cell of its stored hash. -/
def withCell (entry : Tile × Option String) : Tile × Cell := (entry.1, .ofText? entry.2)

namespace Tileset

variable {t : Tileset} {file : String} {c : Container} {entries : List (Tile × Option String)}

/-- Whether the hash that a layout stores for a tile is not that of its payload, but for the case
of letters. -/
def isCorrupt (t : Tileset) (entry : Tile × Option String) : Bool :=
  t.shape.hasStoredHash && decide (entry.2.map Text.upper ≠ tileHash entry.1.data)

theorem hashAgrees_ofText? (tile : Tile) (hash : Option String) :
    hashAgrees tile (.ofText? hash) = decide (hash.map Text.upper = tileHash tile.data) := by
  cases hash with
  | none => cases htile : tileHash tile.data <;> simp [hashAgrees, Cell.ofText?, Cell.isNull, htile]
  | some hash => simp [hashAgrees, Cell.ofText?, Cell.isNull, Cell.display, Bool.beq_eq_decide_eq]

/-- The failure that names a corrupt tile. -/
def corruption (entry : Tile × Option String) : Failure :=
  .fault (.corruptTile entry.1.key (.ofText? entry.2) (.ofText? (tileHash entry.1.data)))

theorem checkedTiles_eq (hscan : t.scanHashed file c = .ofList (entries.map withCell)) :
    t.checkedTiles file c = match entries.find? t.isCorrupt with
      | none => .ok (entries.map (·.1))
      | some entry => .error (corruption entry) := by
  have htiles : (entries.map withCell).map (·.1) = entries.map (·.1) := List.map_map
  unfold checkedTiles
  rw [hscan]
  cases hstored : t.shape.hasStoredHash with
  | false =>
      have hnone : entries.find? t.isCorrupt = none := by simp [isCorrupt, hstored]
      rw [hnone]
      simp only [Bool.false_eq_true, if_false, Scan.ofList, htiles]
      rfl
  | true =>
      have hwrong : (fun entry : Tile × Cell => !hashAgrees entry.1 entry.2) ∘ withCell =
          t.isCorrupt :=
        funext fun entry => by simp [isCorrupt, hstored, withCell, hashAgrees_ofText?]
      simp only [if_true, Scan.ofList, checkHashes_eq, List.find?_map, hwrong, htiles]
      cases entries.find? t.isCorrupt <;> rfl

/-! ### Every ending -/

/-- The aggregate hash of some tiles that have been looked at with their stored hashes. -/
def computedHash (entries : List (Tile × Option String)) : String :=
  aggregateHash (entries.map (·.1))

/-- The report of a validation. -/
def reportOf (t : Tileset) (s : Session) (m : Table) (entries : List (Tile × Option String))
    (integrity : IntegrityCheck) (updated : Bool) : ValidationReport :=
  ⟨s.file, t.shape, integrity, entries.length, m.valueUnder aggHashName, computedHash entries,
    updated⟩

/-- The ways in which a validation ends, by the tiles with their stored hashes and the metadata. -/
inductive Validates (t : Tileset) (s : Session) (m : Table) (entries : List (Tile × Option String))
    (integrity : IntegrityCheck) :
    AggHashMode → EStateM.Result Failure Session ValidationReport → Prop
  | corrupt {mode : AggHashMode} {entry : Tile × Option String}
      (hfirst : entries.find? t.isCorrupt = some entry) :
      Validates t s m entries integrity mode (.error (corruption entry) s)
  | off (hsound : entries.find? t.isCorrupt = none) :
      Validates t s m entries integrity .off (.ok (t.reportOf s m entries integrity false) s)
  | unverified (hsound : entries.find? t.isCorrupt = none)
      (hnone : m.valueUnder aggHashName = none) :
      Validates t s m entries integrity .verify (.ok (t.reportOf s m entries integrity false)
        { s with notices := s.notices ++ [nothingToVerify s.file] })
  | verified {stored : String} (hsound : entries.find? t.isCorrupt = none)
      (hstored : m.valueUnder aggHashName = some stored)
      (hsame : Text.upper stored = computedHash entries) :
      Validates t s m entries integrity .verify (.ok (t.reportOf s m entries integrity false) s)
  | mismatch {stored : String} (hsound : entries.find? t.isCorrupt = none)
      (hstored : m.valueUnder aggHashName = some stored)
      (hdiffers : Text.upper stored ≠ computedHash entries) :
      Validates t s m entries integrity .verify
        (.error (.fault (.aggHashMismatch (.text stored) (.text (computedHash entries)))) s)
  | upToDate (hsound : entries.find? t.isCorrupt = none)
      (hstored : m.valueUnder aggHashName = some (computedHash entries)) :
      Validates t s m entries integrity .update (.ok (t.reportOf s m entries integrity false) s)
  | readOnly (hsound : entries.find? t.isCorrupt = none)
      (hstale : m.valueUnder aggHashName ≠ some (computedHash entries))
      (hreadOnly : s.writable = false) :
      Validates t s m entries integrity .update (.error (.io (.statement s.file .readOnly)) s)
  | refused {why : StatementError} (hsound : entries.find? t.isCorrupt = none)
      (hstale : m.valueUnder aggHashName ≠ some (computedHash entries))
      (hrefused : ¬ m.Takes aggHashName (computedHash entries)) :
      Validates t s m entries integrity .update (.error (.io (.statement s.file why))
        (withTable { m with rows := m.others aggHashName } s))
  | updated (hsound : entries.find? t.isCorrupt = none)
      (hstale : m.valueUnder aggHashName ≠ some (computedHash entries))
      (hwritable : s.writable = true) (htakes : m.Takes aggHashName (computedHash entries)) :
      Validates t s m entries integrity .update (.ok (t.reportOf s m entries integrity true)
        (withTable { m with rows := m.withValue aggHashName (computedHash entries) } s))

/-- The name of the aggregate hash is kept by every column. -/
theorem keeps_aggHashName (m : Table) : m.Keeps "name" (.text aggHashName) := by
  intro c _ _
  cases c.affinity <;> decide

/-- Whether a session has metadata that can be read and rows that show the given tiles. -/
structure Readable (t : Tileset) (s : Session) (m : Table)
    (entries : List (Tile × Option String)) : Prop where
  table : s.contents.table? "metadata" = some m
  columns : m.Offers ["name", "value"]
  scan : t.scanHashed s.file s.contents = .ofList (entries.map withCell)

namespace Readable

variable {s : Session} {m : Table} {integrity : IntegrityCheck} {mode : AggHashMode}

theorem validate_of_corrupt (h : t.Readable s m entries) {entry : Tile × Option String}
    (hfirst : entries.find? t.isCorrupt = some entry) :
    t.validate integrity mode s = .error (corruption entry) s := by
  have hstored := query_ok (metadataValue_eq h.table h.columns (keeps_aggHashName m) s.file)
  have hchecked : t.checkedTiles s.file s.contents = .error (corruption entry) := by
    rw [checkedTiles_eq h.scan, hfirst]
  simp only [validate, bind_apply, hstored, query_error hchecked]

/-- With all hashes right it is the stored aggregate hash that matters. -/
theorem validate_of_sound (h : t.Readable s m entries)
    (hsound : entries.find? t.isCorrupt = none) : t.validate integrity mode s =
      match settleAggHash mode (m.valueUnder aggHashName) (computedHash entries) s with
      | .ok updated s' =>
        .ok { t.reportOf s m entries integrity updated with file := s'.file } s'
      | .error failure s' => .error failure s' := by
  have hstored := query_ok (metadataValue_eq h.table h.columns (keeps_aggHashName m) s.file)
  have hchecked : t.checkedTiles s.file s.contents = .ok (entries.map (·.1)) := by
    rw [checkedTiles_eq h.scan, hsound]
  have hcomputed : aggregateHash (entries.map (·.1)) = computedHash entries := rfl
  simp only [validate, bind_apply, hstored, query_ok hchecked, get_apply, pure_apply,
    List.length_map, hcomputed]
  cases settleAggHash mode (m.valueUnder aggHashName) (computedHash entries) s <;> rfl

theorem validates (h : t.Readable s m entries) (integrity : IntegrityCheck) (mode : AggHashMode) :
    Validates t s m entries integrity mode (t.validate integrity mode s) := by
  cases hsound : entries.find? t.isCorrupt with
  | some entry =>
      rw [h.validate_of_corrupt hsound]
      exact .corrupt hsound
  | none =>
      rw [h.validate_of_sound hsound]
      cases mode with
      | off => exact .off hsound
      | verify =>
          cases hstored : m.valueUnder aggHashName with
          | none => exact .unverified hsound hstored
          | some stored =>
              by_cases hsame : Text.upper stored = computedHash entries
              · simp only [settleAggHash, if_pos hsame, pure_apply]
                exact .verified hsound hstored hsame
              · simp only [settleAggHash, if_neg hsame, throw_apply]
                exact .mismatch hsound hstored hsame
      | update =>
          by_cases hstored : m.valueUnder aggHashName = some (computedHash entries)
          · simp only [settleAggHash, if_pos hstored, pure_apply]
            exact .upToDate hsound hstored
          · simp only [settleAggHash, if_neg hstored, bind_apply]
            cases hwritable : s.writable with
            | false =>
                rw [putMetadata_readOnly h.table h.columns hwritable]
                exact .readOnly hsound hstored hwritable
            | true =>
                by_cases htakes : m.Takes aggHashName (computedHash entries)
                · rw [putMetadata_of_insert h.table h.columns (keeps_aggHashName m) hwritable
                    (Table.insert_of_takes htakes)]
                  exact .updated hsound hstored hwritable htakes
                · obtain ⟨why, hrefused⟩ := Table.insert_of_not_takes htakes
                  rw [putMetadata_of_refused h.table h.columns (keeps_aggHashName m) hwritable
                    hrefused]
                  exact .refused hsound hstored htakes

/-- The tiles stay as they are when the metadata get other rows. -/
theorem setMetadata (h : t.Readable s m entries) (rows : List Row) :
    t.Readable (withTable { m with rows } s) { m with rows } entries := by
  have hname : m.name = "metadata" := Container.name_of_table? h.table
  refine ⟨Container.table?_setTable h.table rows, h.columns, ?_⟩
  rw [← h.scan]
  exact scanHashed_setMetadata (m := { m with rows }) hname t s.file s.contents

end Readable

/-! ### The decision -/

namespace Readable

variable {s : Session} {m : Table} {integrity : IntegrityCheck} {mode : AggHashMode}

theorem find?_isCorrupt_eq_none :
    entries.find? t.isCorrupt = none ↔ ∀ entry ∈ entries, t.isCorrupt entry = false := by
  simp [List.find?_eq_none]

theorem upper_computedHash (entries : List (Tile × Option String)) :
    Text.upper (computedHash entries) = computedHash entries := upper_aggregateHash _

theorem returns_iff (h : t.Readable s m entries) :
    (∃ report s', t.validate integrity mode s = .ok report s') ↔
      (∀ entry ∈ entries, t.isCorrupt entry = false) ∧
      (mode = .verify → ∀ stored ∈ m.valueUnder aggHashName,
        Text.upper stored = computedHash entries) ∧
      (mode = .update → m.valueUnder aggHashName ≠ some (computedHash entries) →
        s.writable = true ∧ m.Takes aggHashName (computedHash entries)) := by
  have hends := h.validates integrity mode
  rw [← find?_isCorrupt_eq_none]
  constructor
  · rintro ⟨report, s', hrun⟩
    rw [hrun] at hends
    cases hends with
    | off hsound => exact ⟨hsound, nofun, nofun⟩
    | unverified hsound hnone =>
        refine ⟨hsound, fun _ stored hstored => ?_, nofun⟩
        simp [hnone] at hstored
    | verified hsound hstored hsame =>
        refine ⟨hsound, fun _ stored hmem => ?_, nofun⟩
        obtain rfl := Option.some.inj (hstored.symm.trans hmem)
        exact hsame
    | upToDate hsound hstored => exact ⟨hsound, nofun, fun _ hstale => absurd hstored hstale⟩
    | updated hsound hstale hwritable htakes =>
        exact ⟨hsound, nofun, fun _ _ => ⟨hwritable, htakes⟩⟩
  · rintro ⟨hsound, hverify, hupdate⟩
    generalize t.validate integrity mode s = result at hends ⊢
    cases hends with
    | corrupt hfirst => cases hsound.symm.trans hfirst
    | mismatch _ hstored hdiffers => exact absurd (hverify rfl _ hstored) hdiffers
    | readOnly _ hstale hreadOnly =>
        have hwritable := (hupdate rfl hstale).1
        rw [hreadOnly] at hwritable
        cases hwritable
    | refused _ hstale hrefused => exact absurd (hupdate rfl hstale).2 hrefused
    | _ => exact ⟨_, _, rfl⟩

theorem refused (h : t.Readable s m entries) (hsound : entries.find? t.isCorrupt = none)
    (hstale : m.valueUnder aggHashName ≠ some (computedHash entries))
    (hnot : ¬ (s.writable = true ∧ m.Takes aggHashName (computedHash entries))) :
    ∃ why, FailsWith (t.validate integrity .update) s (.io (.statement s.file why)) := by
  have hends := h.validates integrity .update
  unfold FailsWith
  generalize t.validate integrity .update s = result at hends ⊢
  cases hends with
  | corrupt hfirst => cases hsound.symm.trans hfirst
  | upToDate _ hstored => exact absurd hstored hstale
  | readOnly => exact ⟨_, _, rfl⟩
  | refused => exact ⟨_, _, rfl⟩
  | updated _ _ hwritable htakes => exact absurd ⟨hwritable, htakes⟩ hnot

theorem changed (h : t.Readable s m entries) :
    Leaves (t.validate integrity mode) s fun s' => s'.contents = s.contents ∨
      ∃ rows, s'.contents = s.contents.setTable { m with rows } ∧
        Table.others { m with rows } aggHashName = m.others aggHashName := by
  have hends := h.validates integrity mode
  have hname : (m.position? "name").isSome := h.columns "name" (by simp)
  unfold Leaves Ends
  generalize t.validate integrity mode s = result at hends ⊢
  cases hends with
  | refused => exact .inr ⟨_, rfl, Table.others_others⟩
  | updated => exact .inr ⟨_, rfl, Table.others_withValue hname (keeps_aggHashName m)⟩
  | _ => exact .inl rfl

/-- The hash that has been put is the one that is found when the tiles are looked at again. -/
theorem verified (h : t.Readable s m entries)
    (hkept : ∀ c ∈ m.columns, c.name = "value" →
      c.affinity.keep (.text (computedHash entries)) = .text (computedHash entries))
    {report : ValidationReport} {s' : Session}
    (hrun : t.validate integrity .update s = .ok report s') (integrity' : IntegrityCheck) :
    ∃ report' s'', t.validate integrity' .verify s' = .ok report' s'' := by
  have hends := h.validates integrity .update
  rw [hrun] at hends
  cases hends with
  | upToDate hsound hstored =>
      refine h.returns_iff.2 ⟨find?_isCorrupt_eq_none.1 hsound, fun _ stored hmem => ?_, nofun⟩
      obtain rfl := Option.some.inj (hstored.symm.trans hmem)
      exact upper_computedHash entries
  | updated hsound =>
      refine (h.setMetadata _).returns_iff.2
        ⟨find?_isCorrupt_eq_none.1 hsound, fun _ stored hmem => ?_, nofun⟩
      have hfound := Table.valueUnder_withValue h.columns (keeps_aggHashName m) hkept
      obtain rfl := Option.some.inj (hfound.symm.trans hmem)
      exact upper_computedHash entries

end Readable

end Tileset

end TileAtlas
