import Cadastre.Layout
import Cadastre.Proofs.Chunk.Blocks
import Cadastre.Proofs.Chunk.Position
import Cadastre.Proofs.Edit
/-!
# Cadastre.Proofs.Layout.Forwarding

**Writers that know no shorter way.** A chunk clears a column section by section. Writing air at all
heights of the column, one after the other, leaves the same chunk down to its palettes and storages
(`Chunk.clearColumn_eq_forM`): every section sees the same writes in the same order, and where there
is no section neither way makes one.

So a writer around a chunk that does nothing but pass blocks and biomes on (`ChunkWriter.Forwards`)
is as good as the chunk. Building an area through it has the same answer and leaves the same chunk
(`ChunkWriter.clearing_by_writes`).
-/

namespace Cadastre

namespace Chunk

/-! ### Clearing by single writes -/

/-- A section without the blocks of a column in its lowest layers. -/
def clearLayers (col : Column) (n : Nat) (s : Section) : Section :=
  (List.range n).foldl (fun s y => s.put (col.number y) .air) s

theorem clearLayers_succ (col : Column) (n : Nat) (s : Section) :
    clearLayers col (n + 1) s = (clearLayers col n s).put (col.number n) .air := by
  rw [clearLayers, List.range_succ, List.foldl_append]
  rfl

theorem putSlot_air (n : Nat) (slot : Option Section) :
    putSlot n .air slot = slot.map (·.put n .air) := by
  cases slot with
  | none => rfl
  | some s => rfl

/-- Air at a height of a column changes the section there and no other. -/
theorem slot_put_air (c : Chunk) (col : Column) (y : Fin worldHeight) (i : Fin 16) :
    (c.put (col.atHeight y) .air).slot i =
      if y / 16 = i.val then (c.slot i).map (·.put (col.number (y % 16)) .air) else c.slot i := by
  rw [put, slot_modifySection, putSlot_air]
  simp only [Place.layer, Column.atHeight, Fin.ext_iff]
  rfl

/-- Going up by one height clears one more layer of the section there. -/
theorem slot_put_air_of_layers {c c' : Chunk} {col : Column} (y : Fin worldHeight) {i : Fin 16}
    (h : c'.slot i = (c.slot i).map (clearLayers col (min 16 (y - i * 16)))) :
    (c'.put (col.atHeight y) .air).slot i =
      (c.slot i).map (clearLayers col (min 16 (y + 1 - i * 16))) := by
  rw [slot_put_air, h]
  split
  case isTrue hlayer =>
      have hbefore : min 16 (y - i.val * 16) = y.val % 16 := by omega
      have hafter : min 16 (y + 1 - i.val * 16) = y.val % 16 + 1 := by omega
      rw [hbefore, hafter, Option.map_map]
      congr 1
      funext s
      exact (clearLayers_succ col _ s).symm
  case isFalse hlayer =>
      have hsame : min 16 (y.val + 1 - i.val * 16) = min 16 (y.val - i.val * 16) := by omega
      rw [hsame]

/-- Air written from the bottom of a column up to a height. -/
theorem writeAir_ends (col : Column) {n : Nat} (hn : n ≤ worldHeight) (c : Chunk) :
    Edit.Ends ((List.range n).forM fun y => setBlock col.x y col.z .air) c fun _ c' =>
      c'.coord = c.coord ∧ c'.biomes = c.biomes ∧
        ∀ i, c'.slot i = (c.slot i).map (clearLayers col (min 16 (n - i * 16))) := by
  induction n with
  | zero =>
      refine Edit.ends_pure ⟨rfl, rfl, fun i => ?_⟩
      rw [Nat.zero_sub, Nat.min_zero]
      exact Option.map_id'.symm
  | succ n ih =>
      rw [List.range_succ, Edit.forM_concat]
      refine (ih (Nat.le_of_succ_le hn)).bind fun _ c' hbelow => ?_
      obtain ⟨hcoord, hbiomes, hslots⟩ := hbelow
      let y : Fin worldHeight := ⟨n, hn⟩
      exact ⟨(), _, setBlock_of_place (place_self (col.atHeight y)) .air c', hcoord, hbiomes,
        fun i => slot_put_air_of_layers y (hslots i)⟩

/-- **Clearing a column is writing air at all its heights**: with the same answer or the same
refusal, and leaving the same chunk down to its palettes and storages. -/
theorem clearColumn_eq_forM (x z : Int) :
    clearColumn x z = (List.range worldHeight).forM fun y => setBlock x y z .air := by
  funext c
  by_cases hinside : InsideColumn x z
  · obtain ⟨col, hcol⟩ := exists_column hinside
    obtain ⟨hx, hz⟩ := column_eq_ok_iff.mp hcol
    obtain ⟨_, c', hwrites, hcoord, hbiomes, hslots⟩ := writeAir_ends col le_rfl c
    have hclear : c' = c.clear col := by
      have hsections : c'.sections = (c.clear col).sections := by
        ext1 i hi
        have hall : min 16 (worldHeight - i * 16) = 16 := by unfold worldHeight; omega
        have hslot := hslots ⟨i, hi⟩
        rw [hall] at hslot
        exact hslot.trans (slot_clear c col ⟨i, hi⟩).symm
      cases c'
      simp only [clear] at hcoord hbiomes hsections ⊢
      rw [hcoord, hbiomes, hsections]
    rw [clearColumn_of_column hcol, ← hx, ← hz, hwrites, hclear]
  · have hlowest : place x 0 z = .error (.error (.misuse x 0 z)) :=
      place_eq_error fun h => hinside ⟨h.1, h.2.2⟩
    rw [clearColumn_of_error (column_eq_error hinside)]
    -- The first write is refused already.
    exact (Edit.bind_of_error (setBlock_of_error hlowest .air c)).symm

end Chunk

/-! ### Writers that pass everything on -/

variable {σ : Type} [ChunkWriter σ] {view : σ → Chunk}

/-- Whether a writer only passes blocks and biomes on to a chunk that is part of its state. It knows
no shorter way to clear a column than writing air. -/
structure ChunkWriter.Forwards (view : σ → Chunk) : Prop where
  setBlock : ∀ x y z b,
    (ChunkWriter.setBlock x y z b : Edit σ Unit).Mirrors view (Chunk.setBlock x y z b)
  setBiome : ∀ x z biome,
    (ChunkWriter.setBiome x z biome : Edit σ Unit).Mirrors view (Chunk.setBiome x z biome)
  clearColumn : ∀ x z, (ChunkWriter.clearColumn x z : Edit σ Unit) =
    (List.range worldHeight).forM fun y => ChunkWriter.setBlock x y z .air

open ChunkWriter (Forwards)

theorem ChunkWriter.Forwards.clearColumn_mirrors (h : Forwards view) (x z : Int) :
    (ChunkWriter.clearColumn x z : Edit σ Unit).Mirrors view (Chunk.clearColumn x z) := by
  rw [h.clearColumn, Chunk.clearColumn_eq_forM]
  exact .forM (fun y : Nat => h.setBlock x y z .air) _

namespace Area

theorem buildColumn_mirrors (h : Forwards view) (a : Area) (ground : Ground)
    (worldX worldZ : Int32) (x z : Int) :
    (a.buildColumn ground worldX worldZ x z : Edit σ Unit).Mirrors view
      (a.buildColumn ground worldX worldZ x z) := by
  unfold buildColumn
  dsimp only
  split
  · refine (h.setBlock x 0 z _).bind fun _ => ?_
    exact (Edit.Mirrors.forM (fun y : Nat => h.setBlock x y z _) _).bind fun _ => h.setBlock x _ z _
  · exact (Edit.Mirrors.forM (fun y : Nat => h.setBlock x y z _) _).bind fun _ => h.setBlock x _ z _

theorem writeColumn_mirrors (h : Forwards view) (a : Area) (coord : ChunkCoord) (fill : Fill)
    (col : Column) (ground : Ground) :
    (a.writeColumn coord fill col ground : Edit σ Unit).Mirrors view
      (a.writeColumn coord fill col ground) := by
  have hrest : (do
      a.buildColumn ground (col.worldX coord) (col.worldZ coord) col.x col.z
      if a.terrain ≠ .roads then ChunkWriter.setBiome col.x col.z a.biome : Edit σ Unit).Mirrors
        view (do
      a.buildColumn ground (col.worldX coord) (col.worldZ coord) col.x col.z
      if a.terrain ≠ .roads then ChunkWriter.setBiome col.x col.z a.biome) := by
    refine (buildColumn_mirrors h a ground _ _ _ _).bind fun _ => ?_
    split
    · exact h.setBiome _ _ _
    · exact .of_pure ()
  unfold writeColumn
  dsimp only
  cases fill with
  | fresh => exact hrest
  | overwrite => exact (h.clearColumn_mirrors _ _).bind fun _ => hrest

theorem buildIfOwned_mirrors (h : Forwards view) (a : Area) (g : Grid) (m : Merges)
    (coord : ChunkCoord) (fill : Fill) (col : Column) :
    (a.buildIfOwned g m coord fill col : Edit σ Bool).Mirrors view
      (a.buildIfOwned g m coord fill col) := by
  unfold buildIfOwned
  split
  · exact .of_pure false
  · refine .liftM_bind _ fun ground => ?_
    split
    · exact .of_pure false
    · exact (writeColumn_mirrors h a coord fill col ground).bind fun _ => .of_pure true

theorem buildInto_mirrors (h : Forwards view) (a : Area) (coord : ChunkCoord) (m : Merges)
    (fill : Fill) :
    (a.buildInto coord m fill : Edit σ Nat).Mirrors view (a.buildInto coord m fill) := by
  unfold buildInto
  refine .liftM_bind _ fun g => .foldlM (fun count col => ?_) _ _
  exact (buildIfOwned_mirrors h a g m coord fill col).bind fun owned => .of_pure _

end Area

/-! ### Both ways to clear -/

namespace ChunkWriter

/-- A chunk as a writer that clears columns in the way of every writer. -/
@[reducible] def plain : ChunkWriter Chunk where
  setBlock := Chunk.setBlock
  setBiome := Chunk.setBiome

/-- **Clearing by single writes.** A chunk's own way to clear a column and that of every writer give
the same answer or the same refusal, for columns outside too, and leave the same chunk. Therefore a
writer that only passes blocks and biomes on to a chunk may stand in its place: whatever is built
through it, fresh or over whatever the chunk holds, ends in the same way and leaves the same chunk.
-/
theorem clearing_by_writes :
    (∀ (c : Chunk) (x z : Int), Chunk.clearColumn x z c = plain.clearColumn x z c) ∧
    ∀ {σ : Type} [ChunkWriter σ] (view : σ → Chunk), Forwards view →
      ∀ (a : Area) (coord : ChunkCoord) (m : Merges) (fill : Fill) (s : σ),
        ((a.buildInto coord m fill : Edit σ Nat).outcome s).map id view =
          (a.buildInto coord m fill : Edit Chunk Nat).outcome (view s) :=
  ⟨fun c x z => congrFun (Chunk.clearColumn_eq_forM x z) c,
    fun _ h a coord m fill => a.buildInto_mirrors h coord m fill⟩

end ChunkWriter

/-- A chunk and the number of blocks that were put into it. -/
structure Counted where
  chunk : Chunk
  writes : Nat

namespace Counted

/-- Passes an edit on to the chunk. What succeeds counts as some writes. -/
def pass (edit : Edit Chunk Unit) (count : Nat) : Edit Counted Unit := fun s =>
  match edit s.chunk with
  | .ok _ c => .ok () ⟨c, s.writes + count⟩
  | .error e c => .error e ⟨c, s.writes⟩

instance : ChunkWriter Counted where
  setBlock x y z b := pass (Chunk.setBlock x y z b) 1
  setBiome x z biome := pass (Chunk.setBiome x z biome) 0

theorem pass_mirrors (edit : Edit Chunk Unit) (count : Nat) :
    (pass edit count).Mirrors chunk edit := by
  intro s
  unfold Edit.outcome pass
  cases edit s.chunk with
  | ok a c => rfl
  | error e c => rfl

theorem forwards : ChunkWriter.Forwards chunk where
  setBlock _ _ _ _ := pass_mirrors _ 1
  setBiome _ _ _ := pass_mirrors _ 0
  clearColumn _ _ := rfl

/-- Counting what is written over a chunk that holds a stone does not change what is left. -/
theorem clearing_by_writes_counted :
    ChunkWriter.Forwards chunk ∧
      let c := (Chunk.empty ⟨2, -1⟩).put ⟨3, ⟨200, by decide⟩, 5⟩ .stone
      ((Area.standard.buildInto ⟨2, -1⟩ .none .overwrite : Edit Counted Nat).outcome ⟨c, 0⟩).map id
          chunk =
        (Area.standard.buildInto ⟨2, -1⟩ .none .overwrite : Edit Chunk Nat).outcome c :=
  ⟨forwards, ChunkWriter.clearing_by_writes.2 chunk forwards _ _ _ _ _⟩

end Counted

end Cadastre
