import Cadastre.Proofs.Chunk.Blocks
import Cadastre.Proofs.Chunk.Position
/-!
# Cadastre.Proofs.Chunk.Coat

**Writes as coats of paint.** A `Coat` says at which heights of which columns there are new blocks,
and which columns have a new biome. It covers what was there before, and what it leaves free stays
as it was (`Coat.Covers`). A second coat over a first one is a coat again (`Coat.upon`), so that
many writes have an effect that can be looked at as a whole.
-/

namespace Cadastre

/-- New blocks and biomes for some places and columns of a chunk. -/
@[ext] structure Coat where
  block : Column → Nat → Option Block
  biome : Column → Option Int32

namespace Coat

/-- No paint at all. -/
def bare : Coat := ⟨fun _ _ => none, fun _ => none⟩

/-- A coat over another. -/
def upon (upper lower : Coat) : Coat where
  block col y := (upper.block col y).or (lower.block col y)
  biome col := (upper.biome col).or (lower.biome col)

/-- The part of a coat on some columns. -/
def within (k : Coat) (cols : List Column) : Coat where
  block col y := if col ∈ cols then k.block col y else none
  biome col := if col ∈ cols then k.biome col else none

/-- A coat on a single column. -/
def on (col : Column) (block : Nat → Option Block) (biome : Option Int32) : Coat :=
  within ⟨fun _ => block, fun _ => biome⟩ [col]

theorem on_upon_on (col : Column) (block block' : Nat → Option Block)
    (biome biome' : Option Int32) :
    (on col block' biome').upon (on col block biome) =
      on col (fun y => (block' y).or (block y)) (biome'.or biome) := by
  unfold on upon within
  ext1
  · funext col' y
    dsimp only
    split <;> rfl
  · funext col'
    dsimp only
    split <;> rfl

/-- Going on from some columns to one more. Where a column comes up again the paint is the same. -/
theorem within_upon_within (k : Coat) (col : Column) (rest : List Column) :
    (k.within rest).upon (k.within [col]) = k.within (col :: rest) := by
  unfold upon within
  ext1
  · funext col' y
    by_cases heq : col' = col
    · subst heq
      by_cases hrest : col' ∈ rest <;> simp [hrest]
    · simp [heq]
  · funext col'
    by_cases heq : col' = col
    · subst heq
      by_cases hrest : col' ∈ rest <;> simp [hrest]
    · simp [heq]

theorem on_none (col : Column) : on col (fun _ => none) none = bare := by
  ext1 <;> simp [on, within, bare]

theorem within_congr {k k' : Coat} {cols : List Column}
    (h : ∀ col ∈ cols, k.block col = k'.block col ∧ k.biome col = k'.biome col) :
    k.within cols = k'.within cols := by
  unfold within
  ext1
  · funext col y
    dsimp only
    split
    · rw [(h col ‹_›).1]
    · rfl
  · funext col
    dsimp only
    split
    · rw [(h col ‹_›).2]
    · rfl

theorem within_nil (k : Coat) : k.within [] = bare := by
  ext1 <;> simp [within, bare]

theorem within_of_forall_mem (k : Coat) {cols : List Column} (h : ∀ col, col ∈ cols) :
    k.within cols = k := by
  ext1 <;> simp [within, h]

/-! ### Covering a chunk -/

/-- The second chunk is the first one under a coat. -/
structure Covers (k : Coat) (c c' : Chunk) : Prop where
  coord : c'.coord = c.coord
  valid : c.Valid → c'.Valid
  block : c.Valid → ∀ (col : Column) (y : Fin worldHeight),
    c'.block (col.atHeight y) = (k.block col y).getD (c.block (col.atHeight y))
  biome : ∀ col, c'.biome col = (k.biome col).or (c.biome col)

variable {k k' : Coat} {c c' c'' : Chunk}

theorem bare_covers (c : Chunk) : bare.Covers c c :=
  ⟨rfl, id, fun _ _ _ => rfl, fun _ => rfl⟩

theorem Covers.trans (h : k.Covers c c') (h' : k'.Covers c' c'') : (k'.upon k).Covers c c'' where
  coord := h'.coord.trans h.coord
  valid hc := h'.valid (h.valid hc)
  block hc col y := by
    rw [h'.block (h.valid hc), h.block hc]
    exact Option.getD_or.symm
  biome col := by
    rw [h'.biome, h.biome]
    exact (Option.or_assoc).symm

/-- Two coats on one column are one. -/
theorem Covers.trans_on {col : Column} {block block' : Nat → Option Block}
    {biome biome' : Option Int32} (h : (on col block biome).Covers c c')
    (h' : (on col block' biome').Covers c' c'') :
    (on col (fun y => (block' y).or (block y)) (biome'.or biome)).Covers c c'' := by
  rw [← on_upon_on]
  exact h.trans h'

theorem Covers.congr {col : Column} {block block' : Nat → Option Block} {biome : Option Int32}
    (h : (on col block biome).Covers c c') (hblock : ∀ y, block y = block' y) :
    (on col block' biome).Covers c c' := by
  rw [← funext hblock]
  exact h

/-! ### Writes -/

theorem atHeight_eq_iff {col col' : Column} {y y' : Fin worldHeight} :
    col'.atHeight y' = col.atHeight y ↔ col' = col ∧ y' = y := by
  obtain ⟨x, z⟩ := col
  obtain ⟨x', z'⟩ := col'
  simp only [Column.atHeight, Place.mk.injEq, Column.mk.injEq]
  tauto

theorem put_covers (c : Chunk) (col : Column) (y : Fin worldHeight) (b : Block) :
    (on col (fun y' => if y' = y then some b else none) none).Covers c
      (c.put (col.atHeight y) b) where
  coord := rfl
  valid hc := (Chunk.put_spec hc _ b).1
  block hc col' y' := by
    rw [(Chunk.put_spec hc _ b).2.1]
    simp only [atHeight_eq_iff, on, within, List.mem_singleton, Fin.val_inj]
    by_cases hcol : col' = col <;> by_cases hy : y' = y <;> simp [hcol, hy]
  biome col' := by simp [on, within, Chunk.put, Chunk.modifySection, Chunk.biome]

theorem clear_covers (c : Chunk) (col : Column) :
    (on col (fun _ => some .air) none).Covers c (c.clear col) where
  coord := rfl
  valid hc := (Chunk.clear_spec hc col).1
  block hc col' y := by
    rw [(Chunk.clear_spec hc col).2.1]
    simp only [on, within, List.mem_singleton]
    show (if col' = col then _ else _) = _
    by_cases hcol : col' = col <;> simp [hcol]
  biome col' := by simp [on, within, Chunk.clear, Chunk.biome]

theorem putBiome_covers (c : Chunk) (col : Column) (biome : Int32) :
    (on col (fun _ => none) (some biome)).Covers c (c.putBiome col biome) where
  coord := rfl
  valid hc := hc
  block hc col' y := by
    simp only [on, within, ite_self, Option.getD_none]
    rfl
  biome col' := by
    rw [c.biome_putBiome]
    simp only [on, within, List.mem_singleton]
    by_cases hcol : col' = col <;> simp [hcol]

end Coat

end Cadastre
