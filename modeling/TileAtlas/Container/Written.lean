import TileAtlas.Container.Basic

/-!
# The written form of a container

A container is kept in a file as a mark and a sequence of natural numbers.  A `Format` holds a
writer and a reader of one type; it is faithful if the reader gives back what the writer wrote and
leaves alone what follows.  The formats of larger types are put together from those of their
parts, and so are the proofs that they are faithful.
-/

namespace TileAtlas

structure Format (α : Type) where
  write : α → List UInt8
  read : List UInt8 → Option (α × List UInt8)

namespace Format

variable {α β : Type}

def Faithful (f : Format α) : Prop :=
  ∀ a rest, f.read (f.write a ++ rest) = some (a, rest)

/-! ### Natural numbers -/

/-- A number in groups of seven bits, the lowest first; each byte but the last has its top bit
set. -/
def writeNatural (n : Nat) : List UInt8 :=
  if n < 128 then [UInt8.ofNat n] else UInt8.ofNat (n % 128 + 128) :: writeNatural (n / 128)
termination_by n

def readNatural : List UInt8 → Option (Nat × List UInt8)
  | [] => none
  | b :: rest =>
    if b.toNat < 128 then some (b.toNat, rest)
    else (readNatural rest).map fun (high, rest) => (b.toNat - 128 + 128 * high, rest)

def natural : Format Nat := ⟨writeNatural, readNatural⟩

theorem natural_faithful : natural.Faithful := by
  intro n rest
  simp only [natural]
  induction n using writeNatural.induct with
  | case1 n h =>
    have small : (UInt8.ofNat n).toNat = n :=
      UInt8.toNat_ofNat_of_lt' (by simp only [UInt8.size]; omega)
    rw [writeNatural, if_pos h]
    simp [readNatural, small, h]
  | case2 n h ih =>
    have small : (UInt8.ofNat (n % 128 + 128)).toNat = n % 128 + 128 :=
      UInt8.toNat_ofNat_of_lt' (by simp only [UInt8.size]; omega)
    rw [writeNatural, if_neg h]
    simp only [List.cons_append, readNatural, small, ih]
    rw [if_neg (by omega)]
    simp only [Option.map_some]
    have whole : n % 128 + 128 - 128 + 128 * (n / 128) = n := by omega
    rw [whole]

/-! ### Putting formats together -/

def map (decode : α → β) (code : β → α) (f : Format α) : Format β where
  write b := f.write (code b)
  read bytes := (f.read bytes).map fun (a, rest) => (decode a, rest)

theorem map_faithful {decode : α → β} {code : β → α} {f : Format α} (hf : f.Faithful)
    (h : ∀ b, decode (code b) = b) : (f.map decode code).Faithful := by
  intro b rest
  simp [map, hf (code b) rest, h]

def pair (f : Format α) (g : Format β) : Format (α × β) where
  write p := f.write p.1 ++ g.write p.2
  read bytes :=
    match f.read bytes with
    | none => none
    | some (a, rest) => (g.read rest).map fun (b, rest) => ((a, b), rest)

theorem pair_faithful {f : Format α} {g : Format β} (hf : f.Faithful) (hg : g.Faithful) :
    (f.pair g).Faithful := by
  intro p rest
  simp [pair, hf p.1, hg p.2]

def readMany (f : Format α) : Nat → List UInt8 → Option (List α × List UInt8)
  | 0, bytes => some ([], bytes)
  | n + 1, bytes =>
    match f.read bytes with
    | none => none
    | some (a, rest) => (readMany f n rest).map fun (more, rest) => (a :: more, rest)

def list (f : Format α) : Format (List α) where
  write values := natural.write values.length ++ values.flatMap f.write
  read bytes :=
    match natural.read bytes with
    | none => none
    | some (n, rest) => readMany f n rest

theorem readMany_append {f : Format α} (hf : f.Faithful) (values : List α) (rest : List UInt8) :
    readMany f values.length (values.flatMap f.write ++ rest) = some (values, rest) := by
  induction values with
  | nil => rfl
  | cons a more ih => simp [readMany, hf a, ih]

theorem list_faithful {f : Format α} (hf : f.Faithful) : f.list.Faithful := by
  intro values rest
  simp [list, natural_faithful values.length, readMany_append hf]

end Format

/-! ### The parts of a container -/

namespace Cell

def code : Cell → Nat × List Nat
  | null => (0, [])
  | int (.ofNat n) => (1, [n])
  | int (.negSucc n) => (2, [n])
  | real x => (3, [x.bits.toNat])
  | text s => (4, s.toList.map Char.toNat)
  | blob b => (5, (Bytes.toList b).map UInt8.toNat)

def ofCode : Nat × List Nat → Cell
  | (1, [n]) => int n
  | (2, [n]) => int (.negSucc n)
  | (3, [n]) => real ⟨UInt64.ofNat n⟩
  | (4, ns) => text (String.ofList (ns.map Char.ofNat))
  | (5, ns) => blob (Bytes.ofList (ns.map UInt8.ofNat))
  | _ => null

theorem ofCode_code (c : Cell) : ofCode c.code = c := by
  cases c with
  | null => rfl
  | int n => cases n <;> rfl
  | real x => simp [code, ofCode]
  | text s => simp [code, ofCode, Function.comp_def]
  | blob b => simp [code, ofCode, Function.comp_def]

end Cell

namespace Format

def cell : Format Cell := (natural.pair natural.list).map Cell.ofCode Cell.code

theorem cell_faithful : cell.Faithful :=
  map_faithful (pair_faithful natural_faithful (list_faithful natural_faithful)) Cell.ofCode_code

def string : Format String :=
  natural.list.map (fun ns => String.ofList (ns.map Char.ofNat)) fun s => s.toList.map Char.toNat

theorem string_faithful : string.Faithful :=
  map_faithful (list_faithful natural_faithful) fun s => by simp [Function.comp_def]

def affinity : Format Affinity :=
  natural.map (fun n => if n = 1 then .integer else if n = 2 then .text else .any) fun
    | .any => 0
    | .integer => 1
    | .text => 2

theorem affinity_faithful : affinity.Faithful :=
  map_faithful natural_faithful fun a => by cases a <;> rfl

def bool : Format Bool := natural.map (fun n => n == 1) fun b => if b then 1 else 0

theorem bool_faithful : bool.Faithful :=
  map_faithful natural_faithful fun b => by cases b <;> rfl

def column : Format Column :=
  (string.pair (affinity.pair (bool.pair cell))).map (fun (name, affinity, required, fallback) =>
    ⟨name, affinity, required, fallback⟩) fun c => (c.name, c.affinity, c.required, c.fallback)

theorem column_faithful : column.Faithful :=
  map_faithful (pair_faithful string_faithful (pair_faithful affinity_faithful
    (pair_faithful bool_faithful cell_faithful))) fun _ => rfl

def table : Format Table :=
  (string.pair (column.list.pair (string.list.pair cell.list.list))).map
    (fun (name, columns, key, rows) => ⟨name, columns, key, rows⟩)
    fun t => (t.name, t.columns, t.key, t.rows)

theorem table_faithful : table.Faithful :=
  map_faithful (pair_faithful string_faithful (pair_faithful (list_faithful column_faithful)
    (pair_faithful (list_faithful string_faithful) (list_faithful (list_faithful cell_faithful)))))
    fun _ => rfl

def view : Format View :=
  (string.pair (string.list.pair string)).map (fun (name, columns, source) =>
    ⟨name, columns, source⟩) fun v => (v.name, v.columns, v.source)

theorem view_faithful : view.Faithful :=
  map_faithful (pair_faithful string_faithful
    (pair_faithful (list_faithful string_faithful) string_faithful)) fun _ => rfl

def container : Format Container :=
  (table.list.pair view.list).map (fun (tables, views) => ⟨tables, views⟩)
    fun c => (c.tables, c.views)

theorem container_faithful : container.Faithful :=
  map_faithful (pair_faithful (list_faithful table_faithful) (list_faithful view_faithful))
    fun _ => rfl

end Format

namespace Container

/-- The bytes at the beginning of every file that holds a container. -/
def mark : List UInt8 := "tile atlas 1\n".toUTF8.data.toList

def toBytes (c : Container) : List UInt8 := mark ++ Format.container.write c

def ofBytes? (bytes : List UInt8) : Option Container :=
  if mark.isPrefixOf bytes then
    match Format.container.read (bytes.drop mark.length) with
    | some (c, []) => some c
    | _ => none
  else none

theorem ofBytes?_toBytes (c : Container) : ofBytes? c.toBytes = some c := by
  have h := Format.container_faithful c []
  rw [List.append_nil] at h
  simp [ofBytes?, toBytes, h]

end Container

end TileAtlas
