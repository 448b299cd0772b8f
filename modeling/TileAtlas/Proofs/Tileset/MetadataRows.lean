import TileAtlas.Proofs.Container.Attempt
import TileAtlas.Proofs.Tileset.Beside

/-!
# Rows of metadata

Names and values of the metadata come from anywhere: a copy takes them from a foreign container and
a patch from a file that may have been tampered with.  What putting a value under a name makes of
the rows, and why it fails where it does, depends on the rows alone.
-/

namespace TileAtlas

open TileAtlas.Action

/-! ### Names that numbers are kept under -/

theorem underscore_notMem_digits (n : Nat) : '_' ∉ Decimal.digitsOf n := fun hmem =>
  absurd (Decimal.isDigit_of_mem_digitsOf hmem) (by decide)

theorem underscore_notMem_intText (n : Int) : '_' ∉ (toString n).toList := by
  cases n with
  | ofNat n => exact Decimal.notMem_natRepr (by decide) n
  | negSucc n =>
      have htext : (toString (Int.negSucc n)).toList = '-' :: (n + 1).repr.toList := by
        show ("-" ++ (n + 1).repr).toList = _
        rw [String.toList_append]
        rfl
      rw [htext, List.mem_cons, not_or]
      exact ⟨by decide, Decimal.notMem_natRepr (by decide) (n + 1)⟩

namespace Decimal

theorem underscore_notMem_exponentText (e : Int) : '_' ∉ exponentText e := by
  have hdigits := underscore_notMem_digits e.natAbs
  unfold exponentText
  dsimp only
  split <;> split <;> simp [hdigits]

theorem underscore_notMem_layoutDigits (layout : Layout) (d : Decimal) :
    '_' ∉ layout.digits d := by
  have hall : '_' ∉ digitsOf d.digits := underscore_notMem_digits d.digits
  have htake (n : Nat) : '_' ∉ (digitsOf d.digits).take n := fun h => hall (List.mem_of_mem_take h)
  have hdrop (n : Nat) : '_' ∉ (digitsOf d.digits).drop n := fun h => hall (List.mem_of_mem_drop h)
  have hexponent := underscore_notMem_exponentText d.magnitude
  unfold Layout.digits
  dsimp only
  split
  · split
    · simp [hall]
    · split
      · simp [htake, hdrop]
      · simp [hall]
  · cases hmore : (digitsOf d.digits).drop 1 with
    | nil =>
        simp only [List.mem_append, List.mem_cons, hexponent, htake]
        split <;> simp
    | cons c more =>
        have hc : '_' ∉ c :: more := hmore ▸ hdrop 1
        simp only [List.mem_append, List.mem_cons, hexponent, htake] at hc ⊢
        simp [hc]

end Decimal

theorem underscore_notMem_columnText (x : Binary64) : '_' ∉ x.columnText.toList := by
  have hrender (choose : Binary64 → Decimal) (y : Binary64) :
      '_' ∉ (Binary64.columnLayout.render choose y).toList := by
    unfold Decimal.Layout.render
    dsimp only
    split
    · decide
    · split
      · split <;> decide
      · rw [String.toList_ofList, List.mem_append, not_or]
        refine ⟨?_, Decimal.underscore_notMem_layoutDigits _ _⟩
        split <;> decide
  exact hrender _ _

/-- Among the cells that a text column keeps as a text with an underscore there is only that text:
no number is written like that. -/
theorem eq_of_keep_eq_text {name : Cell} {s : String} (h : Affinity.text.keep name = .text s)
    (hs : '_' ∈ s.toList) : name = .text s := by
  cases name with
  | int n => exact absurd (Cell.text.inj h ▸ hs) (underscore_notMem_intText n)
  | real x => exact absurd (Cell.text.inj h ▸ hs) (underscore_notMem_columnText x)
  | _ => exact h

/-! ### Values under names -/

namespace Layout

variable {layout : Layout} {rows : List Row} {h : Holding} {name value : Cell}

/-- Whether a row of the metadata stands under a name as a text column keeps it. -/
def isNamed (name : Cell) (row : Row) : Bool :=
  (row.getD 0 .null).eqv (Affinity.text.keep name)

/-- The value under a text name: the first one that is not null. -/
def valueIn (rows : List Row) (name : String) : Option String :=
  (rows.find? fun row =>
    (row.getD 0 .null).eqv (.text name) && !(row.getD 1 .null).isNull).map
      fun row => (row.getD 1 .null).display

/-- The metadata that rows are read as. -/
def readMetadata (rows : List Row) : Metadata :=
  .ofEntries ((rows.map fun row => (row.getD 0 .null, row.getD 1 .null)).filter
    (!·.2.isNull) |>.map fun (name, value) => (name, .text value.display))

/-- The rows after a value has been put under a name, and whether that has failed. -/
def putRow (file : String) (rows : List Row) (name value : Cell) : Except Failure Unit × List Row :=
  if name.fits then
    let rest := rows.filter fun row => !isNamed name row
    if value.isNull then (.ok (), rest)
    else if value.fits then
      if (Affinity.text.keep name).isNull then
        (.error (.io (.statement file (.missing "metadata" "name"))), rest)
      else (.ok (), rest ++ [[Affinity.text.keep name, Affinity.text.keep value]])
    else (.error .outOfRange, rest)
  else (.error .outOfRange, rows)

theorem agrees_metadataWith (rows : List Row) (name : Cell) (row : Row) :
    (metadataWith rows).agrees [("name", name)] row = isNamed name row := by
  simp [Table.agrees, metadataWith, metadataTable, Table.cell, Table.position?, Column.word,
    List.findIdx?_cons, isNamed]

theorem rowOf_metadataWith (rows : List Row) (name value : Cell) :
    (metadataWith rows).rowOf [("name", name), ("value", value)] =
      [Affinity.text.keep name, Affinity.text.keep value] := rfl

theorem target_metadataWith :
    Statement.target (layout.containerWith rows h) "metadata" = .ok (metadataWith rows) := by
  simp only [Statement.target, table?_containerWith]

theorem run_deleteName :
    Statement.run (layout.containerWith rows h) (.delete "metadata" [("name", name)]) =
      .ok (rows.length - (rows.filter fun row => !isNamed name row).length,
        layout.containerWith (rows.filter fun row => !isNamed name row) h) := by
  have hdelete : (metadataWith rows).delete ((metadataWith rows).agrees [("name", name)]) =
      metadataWith (rows.filter fun row => !isNamed name row) := by
    unfold Table.delete
    simp only [agrees_metadataWith]
    rfl
  simp only [Statement.run, target_metadataWith, bind, Except.bind, hdelete,
    setTable_containerWith]
  rfl

theorem eqv_keep_comm (name c : Cell) :
    (Affinity.text.keep name).eqv c = c.eqv (Affinity.text.keep name) := by
  have htext (s : String) : (Cell.text s).eqv c = c.eqv (.text s) := by
    cases c with
    | text r => simp [eq_comm]
    | _ => rfl
  cases name with
  | null => simp [Affinity.keep]
  | blob b =>
      cases c with
      | blob b' =>
          rw [Bool.eq_iff_iff]
          show (compare (Bytes.toList b) (Bytes.toList b') == .eq) = true ↔
            (compare (Bytes.toList b') (Bytes.toList b) == .eq) = true
          rw [beq_iff_eq, beq_iff_eq, Std.compare_eq_iff_eq, Std.compare_eq_iff_eq, eq_comm]
      | _ => rfl
  | _ => exact htext _

/-- A value is put under a name that no row has, unless the name is null. -/
theorem run_insertName (layout : Layout) (h : Holding) (value : Cell)
    (hnew : ∀ row ∈ rows, isNamed name row = false) :
    Statement.run (layout.containerWith rows h)
        (.insert "metadata" [("name", name), ("value", value)]) =
      if (Affinity.text.keep name).isNull then .error (.missing "metadata" "name")
      else .ok (1, layout.containerWith
        (rows ++ [[Affinity.text.keep name, Affinity.text.keep value]]) h) := by
  have hmissing : (metadataWith rows).missingColumn?
      [Affinity.text.keep name, Affinity.text.keep value] =
        if (Affinity.text.keep name).isNull then some "name" else none := by
    cases hnull : (Affinity.text.keep name).isNull <;>
      simp [Table.missingColumn?, metadataWith, metadataTable, Table.cell, Table.position?,
        Column.word, List.findIdx?_cons, hnull]
  have hsame : rows.any ((metadataWith rows).sameKey
      [Affinity.text.keep name, Affinity.text.keep value]) = false := by
    refine List.any_eq_false.2 fun row hrow => ?_
    have hkey : (metadataWith rows).sameKey [Affinity.text.keep name, Affinity.text.keep value]
        row = (Affinity.text.keep name).eqv (row.getD 0 .null) := by
      simp [Table.sameKey, metadataWith, metadataTable, Table.cell, Table.position?, Column.word,
        List.findIdx?_cons]
    rw [hkey, eqv_keep_comm]
    exact ne_true_of_eq_false (hnew row hrow)
  have hinsert : (metadataWith rows).insert [Affinity.text.keep name, Affinity.text.keep value] =
      if (Affinity.text.keep name).isNull then .error (.missing "metadata" "name")
      else .ok (metadataWith (rows ++ [[Affinity.text.keep name, Affinity.text.keep value]])) := by
    unfold Table.insert
    rw [hmissing]
    cases (Affinity.text.keep name).isNull with
    | true => rfl
    | false =>
        show (if rows.any _ = true then _ else _) = _
        rw [hsame]
        rfl
  simp only [Statement.run, target_metadataWith, rowOf_metadataWith, bind, Except.bind, hinsert]
  cases (Affinity.text.keep name).isNull with
  | true => rfl
  | false =>
      simp only [Bool.false_eq_true, if_false]
      rw [setTable_containerWith]

/-! ### What is found under a name -/

theorem isNamed_text (name : String) (row : Row) :
    isNamed (.text name) row = (row.getD 0 .null).eqv (.text name) := rfl

/-- Rows that are dropped with one name do not stand under another one. -/
theorem valueIn_filter (rows : List Row) {other : String}
    (hother : Affinity.text.keep name ≠ .text other) :
    valueIn (rows.filter fun row => !isNamed name row) other = valueIn rows other := by
  refine congrArg (Option.map _) ?_
  rw [List.find?_filter]
  refine congrArg (List.find? · rows) (funext fun row => ?_)
  cases hcell : (row.getD 0 .null).eqv (.text other) with
  | false => simp
  | true =>
      have htext : row.getD 0 .null = .text other := by
        rw [Cell.eqv, Cell.same_text_right, Bool.and_eq_true, decide_eq_true_iff] at hcell
        exact hcell.2
      have hnot : isNamed name row = false := by
        rw [isNamed, htext, ← eqv_keep_comm, Cell.eqv, Cell.same_text_right,
          decide_eq_false hother, Bool.and_false]
      simp [hnot]

theorem valueIn_append_ne {other : String} (hother : Affinity.text.keep name ≠ .text other) :
    valueIn (rows ++ [[Affinity.text.keep name, value]]) other = valueIn rows other := by
  have hnot : (Affinity.text.keep name).eqv (.text other) = false := by
    rw [Cell.eqv, Cell.same_text_right, decide_eq_false hother, Bool.and_false]
  have hlast : [[Affinity.text.keep name, value]].find? (fun row : Row =>
      (row.getD 0 .null).eqv (.text other) && !(row.getD 1 .null).isNull) = none := by
    simp [hnot]
  rw [valueIn, List.find?_append, hlast, Option.or_none, valueIn]

/-- Putting a value under a name leaves the values under other names alone, even if it fails. -/
theorem valueIn_putRow_ne {other : String} (hother : Affinity.text.keep name ≠ .text other)
    (file : String) (value : Cell) :
    valueIn (putRow file rows name value).2 other = valueIn rows other := by
  have hrest := valueIn_filter rows hother
  unfold putRow
  split
  · dsimp only
    split
    · exact hrest
    · split
      · split
        · exact hrest
        · exact (valueIn_append_ne hother).trans hrest
      · exact hrest
  · rfl

theorem putRow_text (file : String) (rows : List Row) (name value : String) :
    putRow file rows (.text name) (.text value) =
      (.ok (), rows.filter (fun row => !isNamed (.text name) row) ++
        [[.text name, .text value]]) := rfl

/-- A text that has been put under a name is found there. -/
theorem valueIn_putRow_text (file : String) (rows : List Row) (name value : String) :
    valueIn (putRow file rows (.text name) (.text value)).2 name = some value := by
  have hnone : (rows.filter fun row => !isNamed (.text name) row).find? (fun row : Row =>
      (row.getD 0 .null).eqv (.text name) && !(row.getD 1 .null).isNull) = none := by
    refine List.find?_eq_none.2 fun row hrow => ?_
    have hnot := (List.mem_filter.1 hrow).2
    rw [isNamed_text, Bool.not_eq_true'] at hnot
    rw [hnot]
    simp
  rw [putRow_text, valueIn, List.find?_append, hnone]
  simp [Cell.isNull, Cell.display]

end Layout

/-! ### Reading and putting values -/

namespace Tileset

open Layout

variable {t : Tileset} {rows : List Row} {h : Holding} {s : Session} {layout : Layout}

theorem metadataRows_containerWith (file : String) (layout : Layout) (rows : List Row)
    (h : Holding) (named : Bool) :
    metadataRows file (layout.containerWith rows h) named =
      .ok (((metadataWith rows).visited (metadataAccess named)).map fun row =>
        (row.getD 0 .null, row.getD 1 .null)) := by
  have hvisit : (layout.containerWith rows h).visit "metadata" ["name", "value"]
      (metadataAccess named) =
        .ok (((metadataWith rows).visited (metadataAccess named)).map (Table.project [0, 1])) := by
    simp only [Container.visit, Container.list, table?_containerWith]
    rfl
  simp only [metadataRows, hvisit, onFile, bind, Except.bind, pure, Except.pure, List.map_map]
  rfl

/-- Rows of one name are visited in the order in which they stand. -/
theorem filter_visited_metadata (rows : List Row) (name : String) (p : Row → Bool) :
    ((metadataWith rows).visited (metadataAccess true)).filter (fun row =>
        (row.getD 0 .null).eqv (.text name) && p row) =
      rows.filter fun row => (row.getD 0 .null).eqv (.text name) && p row := by
  have hname (cell : Cell) (hcell : cell.eqv (.text name) = true) : cell = .text name := by
    cases cell with
    | text other => simpa using hcell
    | _ => cases hcell
  have hkey : metadataTable.visitsByKey (metadataAccess true) = true := by decide
  rw [Table.filter_visited]
  refine (Table.visited_of_key ?_).trans (sortBy_of_pairwise ?_)
  · exact hkey
  refine List.pairwise_of_forall_mem_list fun a ha b hb => ?_
  have hnamed (row : Row) (hrow : row ∈ rows.filter fun row =>
      (row.getD 0 .null).eqv (.text name) && p row) : row.getD 0 .null = .text name :=
    hname _ (Bool.and_eq_true_iff.1 (List.mem_filter.1 hrow).2).1
  have hsame : (Cell.text name).compare (.text name) = .eq := Std.ReflCmp.compare_self
  rw [Table.columnsLe_eq]
  show (((a.getD 0 .null).compare (b.getD 0 .null)).then .eq).isLE = true
  rw [hnamed a ha, hnamed b hb, hsame]
  rfl

theorem metadataValue_containerWith (file : String) (layout : Layout) (rows : List Row)
    (h : Holding) (name : String) :
    metadataValue? (.text name) file (layout.containerWith rows h) = .ok (valueIn rows name) := by
  have hkept : ((layout.containerWith rows h).affinity "metadata" "name").keep (.text name) =
      .text name := by
    rw [Container.affinity, table?_containerWith]
    rfl
  simp only [metadataValue?, metadataRows_containerWith, hkept, bind, Except.bind, pure,
    Except.pure, List.find?_map, Option.map_map, valueIn]
  rw [← List.head?_filter, ← List.head?_filter, ← filter_visited_metadata rows name]
  rfl

theorem metadata_containerWith (file : String) (layout : Layout) (rows : List Row) (h : Holding) :
    metadata file (layout.containerWith rows h) = .ok (readMetadata rows) := by
  have hkey : metadataTable.visitsByKey (metadataAccess false) = false := by decide +kernel
  have hrows : (metadataWith rows).visited (metadataAccess false) = rows :=
    Table.visited_of_no_key hkey
  simp only [metadata, metadataRows_containerWith, hrows, bind, Except.bind, pure, Except.pure,
    readMetadata]

/-- Putting a value under a name does to the rows of metadata what it does to them by themselves,
and nothing to the tiles. -/
theorem putMetadata_beside (hs : t.HoldsBeside rows h s) (name value : Cell) :
    Action.attempt (putMetadata name value) s = ((putRow s.file rows name value).1,
      { s with contents := t.shape.layout.containerWith (putRow s.file rows name value).2 h }) := by
  obtain ⟨file, writable, contents, inTransaction, images, account, notices⟩ := s
  obtain ⟨hwritable, hcontents, -, -⟩ := hs
  obtain rfl : writable = true := hwritable
  obtain rfl : contents = t.shape.layout.containerWith rows h := hcontents
  let session (rows : List Row) : Session := ⟨file, true, t.shape.layout.containerWith rows h,
    inTransaction, images, account, notices⟩
  let rest := rows.filter fun row => !isNamed name row
  have hcheckDelete : Statement.check (session rows).contents
      (.delete "metadata" [("name", name)]) = .ok () := by
    simp only [session, Statement.check, target_metadataWith, bind, Except.bind]
    rfl
  have hcheckInsert : Statement.check (session rest).contents
      (.insert "metadata" [("name", name), ("value", value)]) = .ok () := by
    simp only [session, Statement.check, target_metadataWith, bind, Except.bind]
    rfl
  have hnew : ∀ row ∈ rest, isNamed name row = false := fun row hrow => by
    simpa using (List.mem_filter.1 hrow).2
  show attempt (putMetadata name value) (session rows) =
    ((putRow file rows name value).1, session (putRow file rows name value).2)
  cases hname : name.fits with
  | false =>
      have hdelete := execute_of_unfit hcheckDelete (by simp [Statement.values, hname])
      simp only [attempt, putMetadata, bind_apply, hdelete, putRow, hname, Bool.false_eq_true,
        if_false]
  | true =>
      have hdelete : execute (.delete "metadata" [("name", name)]) (session rows) =
          .ok (rows.length - rest.length) (session rest) :=
        execute_of_run hcheckDelete (by simp [Statement.values, hname]) rfl run_deleteName
      cases hnull : value.isNull with
      | true =>
          simp only [attempt, putMetadata, bind_apply, hdelete, hnull, putRow, hname, if_true]
          rfl
      | false =>
          cases hvalue : value.fits with
          | false =>
              have hinsert := execute_of_unfit hcheckInsert
                (by simp [Statement.values, hname, hvalue])
              simp only [attempt, putMetadata, bind_apply, hdelete, hinsert, hnull, putRow,
                hname, hvalue, if_true, Bool.not_false, Bool.false_eq_true, if_false]
              rfl
          | true =>
              have hrun := run_insertName t.shape.layout h value hnew
              have hfits : (Statement.insert "metadata"
                  [("name", name), ("value", value)]).values.all Cell.fits = true := by
                simp [Statement.values, hname, hvalue]
              cases hkept : (Affinity.text.keep name).isNull with
              | true =>
                  rw [hkept, if_pos rfl] at hrun
                  have hinsert := execute_of_run_error hcheckInsert hfits rfl hrun
                  simp only [attempt, putMetadata, bind_apply, hdelete, hinsert, hnull,
                    putRow, hname, hvalue, hkept, if_true, Bool.not_false, Bool.false_eq_true,
                    if_false]
                  rfl
              | false =>
                  rw [hkept, if_neg Bool.false_ne_true] at hrun
                  have hinsert := execute_of_run hcheckInsert hfits rfl hrun
                  simp only [attempt, putMetadata, bind_apply, hdelete, hinsert, hnull,
                    putRow, hname, hvalue, hkept, if_true, Bool.not_false, Bool.false_eq_true,
                    if_false]
                  rfl

theorem putMetadata_leaves (hs : t.HoldsBeside rows h s) (name value : Cell) :
    Leaves (putMetadata name value) s fun s' =>
      t.HoldsBeside (putRow s.file rows name value).2 h s' := by
  refine Action.leaves_iff.2 ?_
  rw [putMetadata_beside hs]
  exact ⟨hs.writable, rfl, hs.valid, hs.knows⟩

end Tileset

end TileAtlas
