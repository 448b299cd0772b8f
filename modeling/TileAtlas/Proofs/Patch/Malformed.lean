import TileAtlas.Patch.File
import TileAtlas.Proofs.Tileset.Payloads

/-!
# Rows of a patch that are no records

The table of patches of a foreign container may hold cells of any kind in any column.  What is read
of it are records, in order of their keys, up to the first row that is no record.  Such a row is a
fault of the patch, but for one thing: where a payload should be there may be a cell that no bytes
can be made of, and the failure to make them passes through.
-/

namespace TileAtlas

/-- Whether no bytes can be made of a cell: it is a double or a text, or an integer too large for as
many zero bytes. -/
inductive Cell.Breaks (memory : Nat) : Cell → Prop
  | real (x : Binary64) : Breaks memory (.real x)
  | text (s : String) : Breaks memory (.text s)
  | tooMany {n : Int} (hn : memory ≤ n ∨ 0x7fffffffffffffdf ≤ n) : Breaks memory (.int n)

/-- A payload cell fails by a refused value, which is a negative count, or because it breaks. -/
theorem invalid_or_breaks_of_payload {memory : Nat} {cell : Cell} {failure : Failure}
    (h : payload memory cell = .error failure) :
    failure = .invalid .negativeCount ∨ cell.Breaks memory ∧ ∀ why, failure ≠ .invalid why := by
  have hread := readAs_payload memory cell
  rw [h] at hread
  cases hread with
  | negative => exact .inl rfl
  | tooMany hn hfailure =>
      refine .inr ⟨.tooMany hn, fun why => ?_⟩
      rcases hfailure with rfl | rfl <;> nofun
  | real x => exact .inr ⟨.real x, nofun⟩
  | text s => exact .inr ⟨.text s, nofun⟩

namespace PatchFile

variable {file : String} {batch : Int} {c : Container} {row : Row} {key : TileKey} {memory : Nat}

/-- Whether the cells of a row tell a record, one that the checks of records accept. -/
structure Tells (row : Row) (record : PatchRecord) : Prop where
  key : (TileRow.ofCells row).At record.key
  action : row.getD 3 .null = .text (Keyword.word record.action)
  encoding : row.getD 4 .null = .text (Keyword.word record.encoding)
  tileData : (row.getD 5 .null).GivenAs record.tileData
  patchData : (row.getD 6 .null).GivenAs record.patchData
  resultHash : row.getD 7 .null = record.resultHash
  sound : PatchRecord.problem? record.key record.action record.encoding record.patchData = none

/-- The ways in which a row ends the reading of records: it holds no key, something in it is
refused, or a cell for a payload breaks. -/
inductive Refuses (memory : Nat) (file : String) (row : Row) : Failure → Prop
  | noKey (hkey : ∀ key, ¬ (TileRow.ofCells row).At key) : Refuses memory file row
      (.schema (.patchIndex file (row.getD 0 .null) (row.getD 1 .null) (row.getD 2 .null)))
  | noRecord {key : TileKey} {why : Invalid} (hkey : (TileRow.ofCells row).At key) :
      Refuses memory file row (.schema (.patchRecord file key why))
  | noPayload {key : TileKey} {failure : Failure} (hkey : (TileRow.ofCells row).At key)
      (hbreaks : (row.getD 5 .null).Breaks memory ∨ (row.getD 6 .null).Breaks memory)
      (hunreported : failure.reported? = none) : Refuses memory file row failure

theorem parse_eq_ok {α : Type} [Keyword α] {cell : Cell} {a : α}
    (h : (Keyword.parse cell : Except Invalid α) = .ok a) : cell = .text (Keyword.word a) := by
  unfold Keyword.parse at h
  split at h
  next s =>
    split at h
    next found hfound =>
      obtain rfl := Except.ok.inj h
      have hword := List.find?_some hfound
      exact congrArg Cell.text (of_decide_eq_true hword).symm
    · cases h
  · cases h

/-- What the reading of the cells after the key comes to. -/
theorem recordOf_ends (memory : Nat) (key : TileKey)
    (action encoding tileData patchData resultHash : Cell) :
    match recordOf memory key action encoding tileData patchData resultHash with
    | .ok record => record.key = key ∧ action = .text (Keyword.word record.action) ∧
        encoding = .text (Keyword.word record.encoding) ∧ tileData.GivenAs record.tileData ∧
        patchData.GivenAs record.patchData ∧ resultHash = record.resultHash ∧
        PatchRecord.problem? record.key record.action record.encoding record.patchData = none
    | .error failure => (∃ why, failure = .invalid why) ∨
        (tileData.Breaks memory ∨ patchData.Breaks memory) ∧ failure.reported? = none ∧
          ∀ why, failure ≠ .invalid why := by
  unfold recordOf
  cases haction : (Keyword.parse action : Except Invalid PatchAction) with
  | error why => exact .inl ⟨why, rfl⟩
  | ok action' =>
  cases hencoding : (Keyword.parse encoding : Except Invalid PatchEncoding) with
  | error why => exact .inl ⟨why, rfl⟩
  | ok encoding' =>
  cases htile : payload memory tileData with
  | error failure =>
      rcases invalid_or_breaks_of_payload htile with rfl | ⟨hbreaks, hinvalid⟩
      · exact .inl ⟨_, rfl⟩
      · exact .inr ⟨.inl hbreaks, (failure_of_payload htile).2, hinvalid⟩
  | ok tile =>
  cases hpatch : payload memory patchData with
  | error failure =>
      rcases invalid_or_breaks_of_payload hpatch with rfl | ⟨hbreaks, hinvalid⟩
      · exact .inl ⟨_, rfl⟩
      · exact .inr ⟨.inr hbreaks, (failure_of_payload hpatch).2, hinvalid⟩
  | ok patch =>
      simp only [refused, PatchRecord.build, bind, Except.bind]
      cases hproblem : PatchRecord.problem? key action' encoding' patch with
      | some why => exact .inl ⟨why, rfl⟩
      | none =>
          exact ⟨rfl, parse_eq_ok haction, parse_eq_ok hencoding, givenAs_of_payload htile,
            givenAs_of_payload hpatch, rfl, hproblem⟩

/-- A row is either a record, which its cells tell, or it ends the reading. -/
theorem readRecord_ends (memory : Nat) (file : String) (row : Row) :
    (∃ record, readRecord memory file row = .ok (some record) ∧ Tells row record) ∨
      ∃ failure, readRecord memory file row = .error failure ∧
        Refuses memory file row failure := by
  unfold readRecord
  dsimp only
  cases hkey : TileKey.ofCells? (row.getD 0 .null) (row.getD 1 .null) (row.getD 2 .null) with
  | none => exact .inr ⟨_, rfl, .noKey (TileRow.key?_eq_none_iff.1 hkey)⟩
  | some key =>
      have hat : (TileRow.ofCells row).At key := TileRow.key?_eq_some_iff.1 hkey
      have hends := recordOf_ends memory key (row.getD 3 .null) (row.getD 4 .null) (row.getD 5 .null)
        (row.getD 6 .null) (row.getD 7 .null)
      dsimp only
      cases hrecord : recordOf memory key (row.getD 3 .null) (row.getD 4 .null) (row.getD 5 .null)
          (row.getD 6 .null) (row.getD 7 .null) with
      | ok record =>
          rw [hrecord] at hends
          obtain ⟨rfl, haction, hencoding, htile, hpatch, hhash, hsound⟩ := hends
          exact .inl ⟨record, rfl, hat, haction, hencoding, htile, hpatch, hhash, hsound⟩
      | error failure =>
          rw [hrecord] at hends
          refine .inr ⟨_, rfl, ?_⟩
          rcases hends with ⟨why, rfl⟩ | ⟨hbreaks, hunreported, hinvalid⟩
          · exact .noRecord hat
          · have hfailure : recordFailure file key failure = failure := by
              cases failure with
              | invalid why => exact absurd rfl (hinvalid why)
              | _ => rfl
            rw [hfailure]
            exact .noPayload hat hbreaks hunreported

theorem tells_of_readRecord {record : PatchRecord}
    (h : readRecord memory file row = .ok (some record)) : Tells row record := by
  rcases readRecord_ends memory file row with ⟨record', hread, htells⟩ | ⟨failure, hread, -⟩
  · obtain rfl : record' = record := Option.some.inj (Except.ok.inj (hread.symm.trans h))
    exact htells
  · rw [hread] at h
    cases h

theorem refuses_of_readRecord {failure : Failure}
    (h : readRecord memory file row = .error failure) : Refuses memory file row failure := by
  rcases readRecord_ends memory file row with ⟨record, hread, -⟩ | ⟨failure', hread, hrefuses⟩
  · rw [hread] at h
    cases h
  · obtain rfl : failure' = failure := Except.error.inj (hread.symm.trans h)
    exact hrefuses

theorem readRecord_ne_none (memory : Nat) (file : String) (row : Row) :
    readRecord memory file row ≠ .ok none := by
  rcases readRecord_ends memory file row with ⟨record, hread, -⟩ | ⟨failure, hread, -⟩ <;> simp [hread]

theorem Refuses.schema_of_not_breaks {failure : Failure} (h : Refuses memory file row failure)
    (htile : ¬ (row.getD 5 .null).Breaks memory) (hpatch : ¬ (row.getD 6 .null).Breaks memory) :
    ∃ cause, failure = .schema cause := by
  cases h with
  | noKey => exact ⟨_, rfl⟩
  | noRecord => exact ⟨_, rfl⟩
  | noPayload _ hbreaks => exact absurd hbreaks (not_or.2 ⟨htile, hpatch⟩)

/-- The order in which the rows of a patch are read. -/
def rowLe (a b : Row) : Bool := TileRow.keyLe (.ofCells a) (.ofCells b)

theorem pairwise_rowLe (rows : List Row) : (sortBy rowLe rows).Pairwise (rowLe · ·) :=
  pairwise_sortBy (fun _ _ _ => Std.TransCmp.isLE_trans) (fun _ _ => TileRow.keyLe_total _ _) rows

/-- The cells of a row of the table of patches that a record is read from. -/
def rowCells (u : Table) (row : Row) : Row := (keyColumns ++ recordColumns).map (u.cell row)

/-- The rows of the table of patches, in the order in which they are visited. -/
theorem patches_of_isPatch (hnamed : c.Named) (h : isPatch c = .ok true) (a : Access) :
    ∃ u, c.table? "patches" = some u ∧ c.visit "patches" (keyColumns ++ recordColumns) a =
      .ok ((u.visited a).map (rowCells u)) := by
  unfold isPatch at h
  split at h
  · rcases ask_eq_ok h with ⟨hpatches, -⟩ | ⟨-, hno⟩
    · obtain ⟨u, hu, hcolumns⟩ := offers_table hnamed hpatches
      exact ⟨u, hu, Container.list_eq hu hcolumns _⟩
    · cases hno
  · cases h

/-- Whether a scan gives the records that some rows tell, in the order of their keys, up to the
first row that is no record. -/
structure Recites (memory : Nat) (file : String) (before after : List Row)
    (s : Scan PatchRecord) : Prop where
  ordered : (before ++ after).Pairwise (rowLe · ·)
  items : List.Forall₂ Tells before s.items
  ending : after = [] ∧ s.failure = none ∨ ∃ bad rest failure, after = bad :: rest ∧
    s.failure = some failure ∧ Refuses memory file bad failure

theorem recites_of_reaches {before after : List Row} {s : Scan PatchRecord}
    (hreaches : Scan.Reaches (readRecord memory file) before after s)
    (hordered : (before ++ after).Pairwise (rowLe · ·)) : Recites memory file before after s := by
  have hitems := hreaches.items_of_given fun row _ => readRecord_ne_none memory file row
  refine ⟨hordered, hitems.imp fun _ _ => tells_of_readRecord, hreaches.ending.imp_right ?_⟩
  rintro ⟨bad, rest, failure, hafter, hbad, hfailure⟩
  exact ⟨bad, rest, failure, hafter, hfailure, refuses_of_readRecord hbad⟩

namespace Recites

variable {before after : List Row} {s : Scan PatchRecord}

theorem pairwise_key (h : Recites memory file before after s) :
    s.items.Pairwise fun a b => a.key ≤ b.key := by
  refine pairwise_of_forall₂ h.items ?_ (List.pairwise_append.1 h.ordered).1
  intro row record row' record' htells htells' hle
  exact TileRow.key_le_of_keyLe htells.key htells'.key hle

theorem schema_of_not_breaks (h : Recites memory file before after s)
    (hsound : ∀ row ∈ before ++ after,
      ¬ (row.getD 5 .null).Breaks memory ∧ ¬ (row.getD 6 .null).Breaks memory) :
    s.failure = none ∨ ∃ cause, s.failure = some (.schema cause) := by
  rcases h.ending with ⟨-, hnone⟩ | ⟨bad, rest, failure, rfl, hfailure, hrefuses⟩
  · exact .inl hnone
  · obtain ⟨htile, hpatch⟩ := hsound bad (by simp)
    obtain ⟨cause, rfl⟩ := hrefuses.schema_of_not_breaks htile hpatch
    exact .inr ⟨cause, hfailure⟩

end Recites

/-- Of a container of any origin that is taken for a patch, and with cells of any kinds in every
column, the records that are read are what the rows tell, in order of keys and up to the first row
that is no record.  There the reading ends with a fault of the patch, unless a cell for a payload
breaks. -/
theorem scanRecords_of_any (hnamed : c.Named) (hpatch : isPatch c = .ok true) (file : String)
    (batch : Int) (memory : Nat) :
    ∃ u, c.table? "patches" = some u ∧
      let s := scanRecords batch file c memory
      (¬ (-0x80000000 ≤ batch ∧ batch < 0x80000000) → s = .fail .outOfRange) ∧
      (-0x80000000 ≤ batch ∧ batch < 0x80000000 →
        (∃ before after, (before ++ after).Perm (u.rows.map (rowCells u)) ∧
          Recites memory file before after s) ∧
        (s.items.Pairwise fun a b => a.key ≤ b.key) ∧
        ((∀ row ∈ u.rows, ¬ (u.cell row "tile_data").Breaks memory ∧
            ¬ (u.cell row "patch_data").Breaks memory) →
          s.failure = none ∨ ∃ cause, s.failure = some (.schema cause))) := by
  let access : Access := ⟨[], [], some "zoom_level", keyColumns ++ recordColumns⟩
  obtain ⟨u, hu, hvisit⟩ := patches_of_isPatch hnamed hpatch access
  refine ⟨u, hu, fun hbatch => ?_, fun hbatch => ?_⟩
  · have hrows : recordRows batch file c = .error .outOfRange := by
      simp only [recordRows, show c.visit _ _ ⟨[], [], _, _⟩ = _ from hvisit, onFile,
        Tileset.checkBatch, if_neg hbatch, bind, Except.bind]
    rw [scanRecords, hrows]
    rfl
  · let found := (u.visited access).map (rowCells u)
    have hfound : found.Perm (u.rows.map (rowCells u)) := (u.visited_perm access).map _
    have hrows : recordRows batch file c = .ok (sortBy rowLe found) := by
      simp only [recordRows, show c.visit _ _ ⟨[], [], _, _⟩ = _ from hvisit, onFile,
        checkBatch_of_range hbatch, bind, Except.bind]
      rfl
    obtain ⟨before, after, hsplit, hreaches⟩ :=
      Scan.exists_reaches (readRecord memory file) (sortBy rowLe found)
    have hperm : (before ++ after).Perm (u.rows.map (rowCells u)) :=
      hsplit ▸ (sortBy_perm rowLe found).trans hfound
    rw [scanRecords, hrows]
    have hrecites := recites_of_reaches hreaches (hsplit ▸ pairwise_rowLe _)
    refine ⟨⟨before, after, hperm, hrecites⟩, hrecites.pairwise_key, fun hsound => ?_⟩
    refine hrecites.schema_of_not_breaks fun row hrow => ?_
    obtain ⟨r, hr, rfl⟩ := List.mem_map.1 (hperm.mem_iff.1 hrow)
    exact hsound r hr

/-- A text where a payload should be ends the reading with a failure that is no fault of the patch;
the record before it has been read, and the row without a known action after it is not come to. -/
theorem scanRecords_of_any_text :
    let row (y : Int) (action : String) (tileData : Cell) : Row :=
      [.int 0, .int 0, .int y, .text action, .text "full", tileData, .null, .null]
    let u : Table := ⟨"patches", (keyColumns ++ recordColumns).map .free, [],
      [row 2 "sea" .null, row 1 "add" (.text "abc"), row 0 "add" (.blob ⟨#[1]⟩)]⟩
    let c : Container := ⟨[⟨"metadata", ["name", "value", "change"].map .free, [], []⟩, u], []⟩
    let s := scanRecords 1 "p" c
    c.Named ∧ isPatch c = .ok true ∧ (s.items.Pairwise fun a b => a.key ≤ b.key) ∧
    ¬ (∀ row ∈ u.rows, ¬ (u.cell row "tile_data").Breaks usualMemory ∧
      ¬ (u.cell row "patch_data").Breaks usualMemory) ∧
    s = ⟨[⟨⟨0, 0, 0⟩, .add, .full, some ⟨#[1]⟩, none, .null⟩], some .wrongKind⟩ ∧
    scanRecords 0x80000000 "p" c = .fail .outOfRange := by
  intro row u c s
  have hnamed : c.Named := by
    unfold Container.Named
    decide +kernel
  have hpatch : isPatch c = .ok true := by decide +kernel
  have hscan : s = ⟨[⟨⟨0, 0, 0⟩, .add, .full, some ⟨#[1]⟩, none, .null⟩], some .wrongKind⟩ := by
    decide +kernel
  obtain ⟨_, _, hunfit, -⟩ := scanRecords_of_any hnamed hpatch "p" 0x80000000 usualMemory
  obtain ⟨u', hu', -, hfits⟩ := scanRecords_of_any hnamed hpatch "p" 1 usualMemory
  obtain rfl : u = u' := Option.some.inj hu'
  obtain ⟨-, hpairwise, hsound⟩ := hfits (by decide)
  refine ⟨hnamed, hpatch, hpairwise, fun hnone => ?_, hscan, hunfit (by decide)⟩
  have hends := hsound hnone
  rw [show scanRecords 1 "p" c = s from rfl, hscan] at hends
  simp [Failure.schema] at hends

end PatchFile

end TileAtlas
