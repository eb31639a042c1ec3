import Cadastre.Chunk
import Mathlib.Algebra.Group.Nat.Defs
import Mathlib.Data.Fintype.Card
import Mathlib.Data.List.FinRange
/-!
# Cadastre.Proofs.Chunk.Column

**The columns of a chunk in the world.** A chunk begins at a multiple of 16, so the world
coordinates of its columns follow each other without an overflow, at the edges of the world too.
Every column of the world lies in the chunk that `ChunkCoord.containing` names.
-/

namespace Cadastre

/-! ### Multiples of 16 -/

namespace Int32

/-- A shift to the left by four is a product, and what leaves the range is dropped. -/
theorem toInt_shiftLeft_four (n : Int32) : (n <<< 4).toInt = (n.toInt * 16).bmod (2 ^ 32) := by
  have hmul : n <<< 4 = n * 16 := by
    rw [← Int32.toBitVec_inj, Int32.toBitVec_shiftLeft, Int32.toBitVec_mul]
    exact BitVec.shiftLeft_eq_mul_twoPow n.toBitVec 4
  rw [hmul, Int32.toInt_mul]
  rfl

/-- A shift to the right by four is a quotient, rounded down. -/
theorem toInt_shiftRight_four (n : Int32) : (n >>> 4).toInt = n.toInt / 16 := by
  rw [← Int32.toInt_toBitVec, Int32.toBitVec_shiftRight]
  show (n.toBitVec.sshiftRight 4).toInt = n.toInt / 16
  rw [BitVec.toInt_sshiftRight, Int.shiftRight_eq_div_pow]
  rfl

theorem toInt_shiftLeft_four_emod (n : Int32) : (n <<< 4).toInt % 16 = 0 := by
  have h := Int.bmod_def (n.toInt * 16) (2 ^ 32)
  rw [toInt_shiftLeft_four]
  split at h <;> omega

/-- From a multiple of 16 the next fifteen numbers are in range. -/
theorem toInt_shiftLeft_four_add (n : Int32) (i : Fin 16) :
    (n <<< 4 + Int32.ofNat i).toInt = (n <<< 4).toInt + i := by
  have hi : (Int32.ofNat i).toInt = i := Int32.toInt_ofNat_of_lt (by omega)
  have hmod := toInt_shiftLeft_four_emod n
  obtain ⟨hlow, hhigh⟩ := fits_toInt (n <<< 4)
  rw [toInt_add_of_fits, hi]
  rw [hi]
  constructor <;> omega

/-- A number is one of the sixteen from the multiple of 16 below it. -/
theorem exists_shiftRight_four_add (n : Int32) :
    ∃ i : Fin 16, (n >>> 4) <<< 4 + Int32.ofNat i = n := by
  obtain ⟨hlow, hhigh⟩ := fits_toInt n
  refine ⟨⟨(n.toInt % 16).toNat, by omega⟩, ?_⟩
  rw [← Int32.toInt_inj, toInt_shiftLeft_four_add, toInt_shiftLeft_four, toInt_shiftRight_four,
    Int.bmod_eq_of_le]
  · simp only
    omega
  -- The multiple of 16 below a number is still in range: the least number is one itself.
  · omega
  · omega

end Int32

/-! ### Columns -/

namespace Column

theorem toInt_worldX (col : Column) (coord : ChunkCoord) :
    (col.worldX coord).toInt = coord.minX.toInt + col.x :=
  Int32.toInt_shiftLeft_four_add coord.x col.x

theorem toInt_worldZ (col : Column) (coord : ChunkCoord) :
    (col.worldZ coord).toInt = coord.minZ.toInt + col.z :=
  Int32.toInt_shiftLeft_four_add coord.z col.z

/-- The columns of a chunk lie between its first and its last. -/
theorem worldX_mem (col : Column) (coord : ChunkCoord) :
    coord.minX.toInt ≤ (col.worldX coord).toInt ∧
      (col.worldX coord).toInt ≤ (coord.minX + 15).toInt := by
  have hlast : (coord.minX + 15).toInt = coord.minX.toInt + 15 :=
    Int32.toInt_shiftLeft_four_add coord.x 15
  rw [toInt_worldX, hlast]
  omega

theorem worldZ_mem (col : Column) (coord : ChunkCoord) :
    coord.minZ.toInt ≤ (col.worldZ coord).toInt ∧
      (col.worldZ coord).toInt ≤ (coord.minZ + 15).toInt := by
  have hlast : (coord.minZ + 15).toInt = coord.minZ.toInt + 15 :=
    Int32.toInt_shiftLeft_four_add coord.z 15
  rw [toInt_worldZ, hlast]
  omega

/-- A column of the world is one of the chunk that contains it. -/
theorem exists_containing (x z : Int32) :
    ∃ col : Column, col.worldX (.containing x z) = x ∧ col.worldZ (.containing x z) = z := by
  obtain ⟨i, hx⟩ := Int32.exists_shiftRight_four_add x
  obtain ⟨j, hz⟩ := Int32.exists_shiftRight_four_add z
  exact ⟨⟨i, j⟩, hx, hz⟩

theorem mem_all (col : Column) : col ∈ all := by
  obtain ⟨x, z⟩ := col
  simp [all]

theorem nodup_all : all.Nodup := by
  unfold all
  rw [List.nodup_flatMap]
  refine ⟨fun z _ => (List.nodup_finRange 16).map fun x y h => by cases h; rfl, ?_⟩
  refine (List.nodup_finRange 16).imp fun {z z'} hne => ?_
  simp only [Function.onFun, List.disjoint_left, List.mem_map]
  intro col hcol hcol'
  obtain ⟨x, -, rfl⟩ := hcol
  obtain ⟨x', -, h⟩ := hcol'
  cases h
  exact hne rfl

instance : Fintype Column := ⟨⟨all, nodup_all⟩, mem_all⟩

/-- Going through the columns one by one, as many are counted as there are. -/
theorem countP_all (p : Column → Prop) [DecidablePred p] :
    all.countP (fun col => p col) = Fintype.card { col // p col } := by
  rw [Fintype.card_subtype, List.countP_eq_length_filter]
  rfl

end Column

end Cadastre
