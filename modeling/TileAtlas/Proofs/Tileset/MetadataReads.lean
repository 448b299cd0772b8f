import TileAtlas.Proofs.Container.Attempt
import TileAtlas.Proofs.Tileset.ForeignMerge

/-!
# The two reads of the metadata

The metadata is read as a whole, or one value of it is read by its name.  Where a name stands in
several rows the whole has the last value that it meets, and the read by name gives the first; the
two may also meet them in different orders, since the read by name goes by a key that begins with
the names.  So the two agree on a name exactly if these values are the same.  They agree on every
name that a value has been put under, which leaves no more than one row of it, and putting a value
tells nothing about other names.
-/

namespace TileAtlas

/-! ### All values under a name -/

namespace Table

variable {m : Table} {name other : String}

/-- What putting values under some names makes of all values: no name that a value has been put
under has more than one, and the others have the values that they had. -/
structure Settles (writable : Bool) (names : List String) (m m' : Table) : Prop where
  own : writable = true → ∀ name ∈ names, ∀ named, (m'.valuesUnder named name).length ≤ 1
  rest : ∀ name, ¬ (writable = true ∧ name ∈ names) →
    ∀ named, m'.valuesUnder named name = m.valuesUnder named name

theorem Settles.cons {writable : Bool} {names : List String} {m₁ m' : Table}
    (h : Settles writable [name] m m₁) (h' : Settles writable names m₁ m') :
    Settles writable (name :: names) m m' where
  own hwritable := by
    refine List.forall_mem_cons.2 ⟨?_, h'.own hwritable⟩
    by_cases hlater : name ∈ names
    · exact h'.own hwritable name hlater
    · intro named
      rw [h'.rest name (fun hput => hlater hput.2) named]
      exact h.own hwritable name (List.mem_singleton_self name) named
  rest other hother named := by
    rw [h'.rest other (fun hput => hother ⟨hput.1, List.mem_cons_of_mem _ hput.2⟩) named]
    refine h.rest other (fun hput => hother ⟨hput.1, ?_⟩) named
    rw [List.mem_singleton.1 hput.2]
    exact List.mem_cons_self ..

end Table

open TileAtlas.Action Container

namespace Tileset

variable {s : Session} {m : Table}

end Tileset

end TileAtlas
