import TileAtlas.Container.Basic
import TileAtlas.Proofs.Container.Cell

/-!
# Tables that keep a list

A table whose rows are the images of a list of entries stays of that form: a new row comes from a
new entry, and deleting rows by a condition on entries filters the list.
-/

namespace TileAtlas

namespace Table

theorem insert_eq_ok {t : Table} {row : Row} (hfilled : t.missingColumn? row = none)
    (hnew : ∀ old ∈ t.rows, t.sameKey row old = false) :
    t.insert row = .ok { t with rows := t.rows ++ [row] } := by
  have hany : t.rows.any (t.sameKey row) = false := by simpa using hnew
  simp only [insert, hfilled, hany, Bool.false_eq_true, if_false]

theorem replace_eq_ok {t : Table} {row : Row} (hfilled : t.missingColumn? row = none) :
    t.replace row =
      .ok { t with rows := t.rows.filter (fun old => !t.sameKey row old) ++ [row] } := by
  simp only [replace, hfilled]

variable {α : Type} {t : Table} {entries : List α} {row : α → Row}

theorem insert_map {entry : α} (hfilled : t.missingColumn? (row entry) = none)
    (hrows : t.rows = entries.map row)
    (hnew : ∀ old ∈ entries, t.sameKey (row entry) (row old) = false) :
    t.insert (row entry) = .ok { t with rows := (entries ++ [entry]).map row } := by
  rw [insert_eq_ok hfilled (by simpa [hrows] using hnew), hrows, List.map_append]
  rfl

theorem replace_map {entry : α} {same : α → Bool} (hfilled : t.missingColumn? (row entry) = none)
    (hrows : t.rows = entries.map row)
    (hsame : ∀ old ∈ entries, t.sameKey (row entry) (row old) = same old) :
    t.replace (row entry) =
      .ok { t with rows := ((entries.filter fun old => !same old) ++ [entry]).map row } := by
  have hkept : (entries.filter ((fun old => !t.sameKey (row entry) old) ∘ row)) =
      entries.filter fun old => !same old :=
    List.filter_congr fun old hold => by simp [hsame old hold]
  rw [replace_eq_ok hfilled, hrows, List.filter_map, hkept, List.map_append]
  rfl

theorem delete_map {condition : Row → Bool} {p : α → Bool} (hrows : t.rows = entries.map row)
    (hcondition : ∀ entry ∈ entries, condition (row entry) = p entry) :
    t.delete condition = { t with rows := (entries.filter fun entry => !p entry).map row } := by
  rw [delete, hrows, List.filter_map]
  refine congrArg (fun rows => { t with rows := rows.map row }) (List.filter_congr ?_)
  intro entry hentry
  simp [hcondition entry hentry]

end Table

end TileAtlas
