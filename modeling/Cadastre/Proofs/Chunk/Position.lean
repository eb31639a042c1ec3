import Cadastre.Chunk.Writer
/-!
# Cadastre.Proofs.Chunk.Position

**Positions given by numbers.** A write names its position by three integers. Inside the chunk it is
the total operation at a place; outside it is refused with the numbers it was given, and the chunk
is left as it was.
-/

namespace Cadastre.Chunk

/-! ### Places and columns -/

/-- Numbers that lie in a chunk. -/
def Inside (x y z : Int) : Prop := (0 ≤ x ∧ x < 16) ∧ (0 ≤ y ∧ y < worldHeight) ∧ 0 ≤ z ∧ z < 16

instance (x y z : Int) : Decidable (Inside x y z) := inferInstanceAs (Decidable (_ ∧ _))

/-- Numbers of a column that lies in a chunk. -/
def InsideColumn (x z : Int) : Prop := (0 ≤ x ∧ x < 16) ∧ 0 ≤ z ∧ z < 16

instance (x z : Int) : Decidable (InsideColumn x z) := inferInstanceAs (Decidable (_ ∧ _))

/-- Numbers that name a place are those of the place. -/
theorem place_eq_ok_iff {x y z : Int} {p : Place} :
    place x y z = .ok p ↔ p.x = x ∧ p.y = y ∧ p.z = z := by
  unfold place
  obtain ⟨px, py, pz⟩ := p
  split
  · simp only [Except.ok.injEq, Place.mk.injEq, Fin.ext_iff]
    omega
  · simp only [reduceCtorEq, false_iff]
    unfold worldHeight at *
    omega

theorem place_eq_error {x y z : Int} (h : ¬ Inside x y z) :
    place x y z = .error (.error (.misuse x y z)) := dif_neg h

theorem exists_place {x y z : Int} (h : Inside x y z) : ∃ p, place x y z = .ok p := ⟨_, dif_pos h⟩

theorem column_eq_error {x z : Int} (h : ¬ InsideColumn x z) :
    column x z = .error (.error (.misuse x 0 z)) := dif_neg h

theorem exists_column {x z : Int} (h : InsideColumn x z) : ∃ col, column x z = .ok col :=
  ⟨_, dif_pos h⟩

theorem column_eq_ok_iff {x z : Int} {col : Column} :
    column x z = .ok col ↔ col.x = x ∧ col.z = z := by
  unfold column
  obtain ⟨cx, cz⟩ := col
  split
  · simp only [Except.ok.injEq, Column.mk.injEq, Fin.ext_iff]
    omega
  · simp only [reduceCtorEq, false_iff]
    omega

@[simp] theorem place_self (p : Place) : place p.x p.y p.z = .ok p :=
  place_eq_ok_iff.mpr ⟨rfl, rfl, rfl⟩

@[simp] theorem column_self (col : Column) : column col.x col.z = .ok col :=
  column_eq_ok_iff.mpr ⟨rfl, rfl⟩

/-! ### Reading -/

theorem block?_column (c : Chunk) (col : Column) (y : Fin worldHeight) :
    c.block? col.x y col.z = some (c.block (col.atHeight y)) := by
  unfold block?
  rw [show place col.x y col.z = .ok (col.atHeight y) from place_self (col.atHeight y)]
  rfl

theorem biome?_column (c : Chunk) (col : Column) : c.biome? col.x col.z = c.biome col := by
  unfold biome?
  rw [column_self]
  rfl

/-! ### Writes -/

theorem setBlock_of_place {x y z : Int} {p : Place} (h : place x y z = .ok p) (b : Block)
    (c : Chunk) : setBlock x y z b c = .ok () (c.put p b) := by
  unfold setBlock
  rw [h]
  rfl

theorem setBlock_of_error {x y z : Int} {e : Failure} (h : place x y z = .error e) (b : Block)
    (c : Chunk) : setBlock x y z b c = .error e c := by
  unfold setBlock
  rw [h]
  rfl

theorem setBiome_of_column {x z : Int} {col : Column} (h : column x z = .ok col) (biome : Int32)
    (c : Chunk) : setBiome x z biome c = .ok () (c.putBiome col biome) := by
  unfold setBiome
  rw [h]
  rfl

theorem setBiome_of_error {x z : Int} {e : Failure} (h : column x z = .error e) (biome : Int32)
    (c : Chunk) : setBiome x z biome c = .error e c := by
  unfold setBiome
  rw [h]
  rfl

theorem clearColumn_of_column {x z : Int} {col : Column} (h : column x z = .ok col) (c : Chunk) :
    clearColumn x z c = .ok () (c.clear col) := by
  unfold clearColumn
  rw [h]
  rfl

theorem clearColumn_of_error {x z : Int} {e : Failure} (h : column x z = .error e) (c : Chunk) :
    clearColumn x z c = .error e c := by
  unfold clearColumn
  rw [h]
  rfl

end Cadastre.Chunk
