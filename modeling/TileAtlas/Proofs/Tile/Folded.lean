import TileAtlas.Proofs.Tile.Latest

/-!
# The folded text

The aggregate hash is the digest of one text without any lengths in it.  Its parts cannot be told
apart by counting, but each ends in a sign that does not occur before it: numbers are digits, a
hash is hexadecimal or a lone dash.  So the text splits in only one way, and tilesets with one
aggregate hash have the same marks unless their texts are two messages with one digest.
-/

namespace TileAtlas

/-! ### Parts that end in a sign -/

/-- A part ends at the first sign it does not contain. -/
theorem append_cons_inj {α : Type} {c : α} {l l' r r' : List α} (hl : c ∉ l) (hl' : c ∉ l') :
    l ++ c :: r = l' ++ c :: r' ↔ l = l' ∧ r = r' := by
  refine ⟨fun h => ?_, fun ⟨h, h'⟩ => by rw [h, h']⟩
  induction l generalizing l' with
  | nil =>
      cases l' with
      | nil => exact ⟨rfl, (List.cons.inj h).2⟩
      | cons a l' => exact absurd (List.cons.inj h).1 (List.ne_of_not_mem_cons hl')
  | cons a l ih =>
      cases l' with
      | nil => exact absurd (List.cons.inj h).1.symm (List.ne_of_not_mem_cons hl)
      | cons a' l' =>
          obtain ⟨hhead, htail⟩ := List.cons.inj h
          obtain ⟨hrest, hafter⟩ := ih (List.not_mem_of_not_mem_cons hl)
            (List.not_mem_of_not_mem_cons hl') htail
          exact ⟨by rw [hhead, hrest], hafter⟩

theorem natRepr_inj {m n : Nat} : m.repr = n.repr ↔ m = n := by
  refine ⟨fun h => ?_, fun h => by rw [h]⟩
  have hdigits : Nat.toDigits 10 m = Nat.toDigits 10 n := String.ofList_injective h
  rw [← Nat.ofDigitChars_ten_toDigits (n := m), hdigits, Nat.ofDigitChars_ten_toDigits]

namespace Bytes

/-! ### Hexadecimal text -/

theorem hexDigitUpper_inj {m n : Nat} (hm : m < 16) (hn : n < 16) :
    hexDigitUpper m = hexDigitUpper n ↔ m = n := by
  have hall : ∀ a b : Fin 16, hexDigitUpper a = hexDigitUpper b ↔ a = b := by decide
  simpa [Fin.ext_iff] using hall ⟨m, hm⟩ ⟨n, hn⟩

theorem semicolon_ne_hexDigitUpper {n : Nat} (hn : n < 16) : ';' ≠ hexDigitUpper n := by
  have hall : ∀ a : Fin 16, ';' ≠ hexDigitUpper a := by decide
  exact hall ⟨n, hn⟩

theorem div_sixteen_lt (b : UInt8) : b.toNat / 16 < 16 :=
  Nat.div_lt_of_lt_mul b.toNat_lt

theorem mod_sixteen_lt (b : UInt8) : b.toNat % 16 < 16 :=
  Nat.mod_lt _ (by decide)

theorem toList_hexUpper (bytes : List UInt8) : (hexUpper bytes).toList = bytes.flatMap fun b =>
    [hexDigitUpper (b.toNat / 16), hexDigitUpper (b.toNat % 16)] := by
  rw [hexUpper, String.toList_ofList]

theorem length_hexUpper (bytes : List UInt8) : (hexUpper bytes).length = 2 * bytes.length := by
  rw [← String.length_toList, toList_hexUpper]
  induction bytes with
  | nil => rfl
  | cons b bytes ih => simp only [List.flatMap_cons, List.length_append, List.length_cons,
      List.length_nil, ih]; omega

theorem semicolon_notMem_hexUpper (bytes : List UInt8) : ';' ∉ (hexUpper bytes).toList := by
  rw [toList_hexUpper, List.mem_flatMap]
  rintro ⟨b, -, hmem⟩
  rcases List.mem_pair.1 hmem with h | h
  · exact semicolon_ne_hexDigitUpper (div_sixteen_lt b) h
  · exact semicolon_ne_hexDigitUpper (mod_sixteen_lt b) h

theorem hexUpper_inj {bytes bytes' : List UInt8} :
    hexUpper bytes = hexUpper bytes' ↔ bytes = bytes' := by
  refine ⟨fun h => ?_, fun h => by rw [h]⟩
  rw [← String.toList_inj, toList_hexUpper, toList_hexUpper] at h
  induction bytes generalizing bytes' with
  | nil =>
      cases bytes' with
      | nil => rfl
      | cons b bytes' => simp at h
  | cons b bytes ih =>
      cases bytes' with
      | nil => simp at h
      | cons b' bytes' =>
          simp only [List.flatMap_cons, List.cons_append, List.nil_append, List.cons.injEq] at h
          obtain ⟨hhigh, hlow, hrest⟩ := h
          have hdiv := (hexDigitUpper_inj (div_sixteen_lt b) (div_sixteen_lt b')).1 hhigh
          have hmod := (hexDigitUpper_inj (mod_sixteen_lt b) (mod_sixteen_lt b')).1 hlow
          have hbyte : b = b' := UInt8.toNat_inj.1 (by omega)
          rw [hbyte, ih hrest]

end Bytes

namespace Md5

/-- Two messages with one digest. -/
def Collide (message message' : Bytes) : Prop :=
  message ≠ message' ∧ digest message = digest message'

theorem hex_inj {message message' : Bytes} :
    hex message = hex message' ↔ digest message = digest message' :=
  Bytes.hexUpper_inj

theorem hex_eq_iff {message message' : Bytes} :
    hex message = hex message' ↔ message = message' ∨ Collide message message' := by
  rw [hex_inj, Collide]
  by_cases h : message = message'
  · simp [h]
  · simp [h]

theorem hex_ne_dash (message : Bytes) : hex message ≠ "-" := by
  intro h
  have hlength : (hex message).length = 32 := by
    rw [hex, Bytes.length_hexUpper, length_digest]
  rw [h] at hlength
  exact absurd hlength (by decide)

end Md5

/-! ### Lines -/

section Lines

variable {tile tile' : Tile} {tiles tiles' : List Tile}

theorem hashText_inj {data data' : Option Bytes} :
    (tileHash data).getD "-" = (tileHash data').getD "-" ↔ tileHash data = tileHash data' := by
  cases data with
  | none =>
      cases data' with
      | none => simp
      | some b' => simpa [tileHash, payloadHash] using (Md5.hex_ne_dash b').symm
  | some b =>
      cases data' with
      | none => simpa [tileHash, payloadHash] using Md5.hex_ne_dash b
      | some b' => simp [tileHash]

theorem semicolon_notMem_hashText (data : Option Bytes) :
    ';' ∉ ((tileHash data).getD "-").toList := by
  cases data with
  | none => decide
  | some b => exact Bytes.semicolon_notMem_hexUpper (Md5.digest b)

theorem toList_line (tile : Tile) : tile.line.toList =
    tile.key.zoom.repr.toList ++ '/' :: (tile.key.column.repr.toList ++ '/' ::
      (tile.key.row.repr.toList ++ '=' :: (((tileHash tile.data).getD "-").toList ++ [';']))) := by
  simp only [Tile.line, TileKey.text, String.toList_append, List.append_assoc]
  rfl

/-- A line tells where it ends and what it is the line of, whatever text follows it. -/
theorem line_append_inj {rest rest' : List Char} :
    tile.line.toList ++ rest = tile'.line.toList ++ rest' ↔
      tile.mark = tile'.mark ∧ rest = rest' := by
  have hdigits {c : Char} (hc : c.isDigit = false) (n : Nat) := Decimal.notMem_natRepr hc n
  simp only [toList_line, List.append_assoc, List.cons_append, List.nil_append]
  rw [append_cons_inj (hdigits (by decide) _) (hdigits (by decide) _),
    append_cons_inj (hdigits (by decide) _) (hdigits (by decide) _),
    append_cons_inj (hdigits (by decide) _) (hdigits (by decide) _),
    append_cons_inj (semicolon_notMem_hashText _) (semicolon_notMem_hashText _)]
  simp only [String.toList_inj, natRepr_inj, hashText_inj, Tile.mark, Prod.mk.injEq,
    and_assoc]
  obtain ⟨⟨z, x, y⟩, data⟩ := tile
  obtain ⟨⟨z', x', y'⟩, data'⟩ := tile'
  simp only [TileKey.mk.injEq, and_assoc]

theorem line_ne_empty (tile : Tile) : tile.line ≠ "" := by
  intro h
  have hlist := congrArg String.toList h
  simp [toList_line] at hlist

theorem toList_foldedText (tiles : List Tile) :
    (foldedText tiles).toList = tiles.flatMap fun tile => tile.line.toList := by
  simp [foldedText, List.flatMap_map]

theorem foldedText_inj :
    foldedText tiles = foldedText tiles' ↔ tiles.map Tile.mark = tiles'.map Tile.mark := by
  rw [← String.toList_inj, toList_foldedText, toList_foldedText]
  induction tiles generalizing tiles' with
  | nil => cases tiles' <;> simp [line_ne_empty]
  | cons tile tiles ih =>
      cases tiles' with
      | nil => simp [line_ne_empty]
      | cons tile' tiles' =>
          simp only [List.flatMap_cons, List.map_cons, line_append_inj, ih, List.cons.injEq]

/-- Two tiles of one key whose payloads are different and have one digest. -/
def Tile.Collide (tile tile' : Tile) : Prop :=
  tile.key = tile'.key ∧ ∃ data data', tile.data = some data ∧ tile'.data = some data' ∧
    Md5.Collide data data'

theorem mark_eq_iff : tile.mark = tile'.mark ↔ tile = tile' ∨ tile.Collide tile' := by
  constructor
  · obtain ⟨key, data⟩ := tile
    obtain ⟨key', data'⟩ := tile'
    intro h
    obtain ⟨rfl, hhash⟩ : key = key' ∧ tileHash data = tileHash data' := by
      simpa only [Tile.mark, Prod.mk.injEq] using h
    cases data with
    | none =>
        cases data' with
        | none => exact .inl rfl
        | some b' => simp [tileHash] at hhash
    | some b =>
        cases data' with
        | none => simp [tileHash] at hhash
        | some b' =>
            have hhex : Md5.hex b = Md5.hex b' := by simpa [tileHash, payloadHash] using hhash
            rcases Md5.hex_eq_iff.1 hhex with heq | hcollide
            · exact .inl (by rw [heq])
            · exact .inr ⟨rfl, b, b', rfl, rfl, hcollide⟩
  · rintro (rfl | ⟨hkey, b, b', hb, hb', hcollide⟩)
    · rfl
    · have hhex : Md5.hex b = Md5.hex b' := Md5.hex_eq_iff.2 (.inr hcollide)
      simp [Tile.mark, hkey, hb, hb', tileHash, payloadHash, hhex]

theorem marks_eq_iff : tiles.map Tile.mark = tiles'.map Tile.mark ↔
    List.Forall₂ (fun a b => a = b ∨ a.Collide b) tiles tiles' := by
  rw [← List.forall₂_eq_eq_eq, List.forall₂_map_left_iff, List.forall₂_map_right_iff]
  simp only [mark_eq_iff]

end Lines

/-- The folded text splits in only one way.  One aggregate hash of two tilesets means the same
marks in the same order or two folded texts that collide, and the same marks mean the same tiles
but for payloads that collide. -/
theorem aggregateHash_identifies (tiles tiles' : List Tile) :
    (foldedText tiles = foldedText tiles' ↔ tiles.map Tile.mark = tiles'.map Tile.mark) ∧
    (aggregateHash tiles = aggregateHash tiles' ↔
      tiles.map Tile.mark = tiles'.map Tile.mark ∨
        Md5.Collide (foldedText tiles).toUTF8 (foldedText tiles').toUTF8) ∧
    (tiles.map Tile.mark = tiles'.map Tile.mark ↔
      List.Forall₂ (fun a b => a = b ∨ a.Collide b) tiles tiles') := by
  refine ⟨foldedText_inj, ?_, marks_eq_iff⟩
  rw [aggregateHash, aggregateHash, Md5.hex_eq_iff, ← foldedText_inj]
  exact or_congr_left ⟨String.toByteArray_inj.1, congrArg String.toUTF8⟩

/-- An empty tileset and a null tile have different texts. -/
example : foldedText [] ≠ foldedText [⟨⟨0, 0, 0⟩, none⟩] := by decide

end TileAtlas
