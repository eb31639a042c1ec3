import Cadastre.Proofs.Chunk.Count
import Cadastre.Proofs.Chunk.Position
/-!
# Cadastre.Proofs.Chunk.History

**Chunks as plain maps.** A `Picture` is what a chunk should mean: a block for each position and a
biome, or none, for each column. A `History` is any way in which a chunk can come about by writes
and by laying chunks over each other, the upper ones made in the same way.

The picture is kept by every write (`Depicts`), so by induction on the history a chunk shows its
picture wherever it is asked (`History.chunk_represents`).
-/

namespace Cadastre

open Chunk (Inside InsideColumn)

/-! ### Pictures -/

/-- The blocks and biomes that a chunk should have, by its local coordinates. -/
structure Picture where
  block : Int → Int → Int → Block
  biome : Int → Int → Option Int32

namespace Picture

/-- Air everywhere and no biome. -/
def blank : Picture := ⟨fun _ _ _ => .air, fun _ _ => none⟩

/-- A picture with another block at a position, if that lies inside. -/
def setBlock (m : Picture) (x y z : Int) (b : Block) : Picture :=
  if Inside x y z then
    { m with block := fun x' y' z' => if x' = x ∧ y' = y ∧ z' = z then b else m.block x' y' z' }
  else m

/-- A picture with another biome in a column, if that lies inside. -/
def setBiome (m : Picture) (x z : Int) (biome : Int32) : Picture :=
  if InsideColumn x z then
    { m with biome := fun x' z' => if x' = x ∧ z' = z then some biome else m.biome x' z' }
  else m

/-- A picture with a column of air, if the column lies inside. -/
def clearColumn (m : Picture) (x z : Int) : Picture :=
  if InsideColumn x z then
    { m with block := fun x' y' z' => if x' = x ∧ z' = z then .air else m.block x' y' z' }
  else m

/-- A picture under another, which shows where it is neither air nor without a biome. -/
def overlay (m upper : Picture) : Picture where
  block x y z := if upper.block x y z = .air then m.block x y z else upper.block x y z
  biome x z := (upper.biome x z).or (m.biome x z)

end Picture

/-! ### Histories -/

/-- A way to make a chunk. -/
inductive History
  | new (coord : ChunkCoord)
  | setBlock (h : History) (x y z : Int) (b : Block)
  | setBiome (h : History) (x z : Int) (biome : Int32)
  | clearColumn (h : History) (x z : Int)
  | overlay (h upper : History)

namespace History

/-- The chunk that a history makes. A write that is refused does not end the history. -/
def chunk : History → Chunk
  | new coord => .empty coord
  | setBlock h x y z b => ((Chunk.setBlock x y z b).outcome h.chunk).2
  | setBiome h x z biome => ((Chunk.setBiome x z biome).outcome h.chunk).2
  | clearColumn h x z => ((Chunk.clearColumn x z).outcome h.chunk).2
  | overlay h upper => h.chunk.overlay upper.chunk

/-- The picture that a history paints. -/
def picture : History → Picture
  | new _ => .blank
  | setBlock h x y z b => h.picture.setBlock x y z b
  | setBiome h x z biome => h.picture.setBiome x z biome
  | clearColumn h x z => h.picture.clearColumn x z
  | overlay h upper => h.picture.overlay upper.picture

end History

/-! ### One step -/

namespace Chunk

/-- A well-formed chunk has the blocks and biomes of a picture. -/
structure Depicts (c : Chunk) (m : Picture) : Prop where
  valid : c.Valid
  block : ∀ p : Place, c.block p = m.block p.x p.y p.z
  biome : ∀ col : Column, c.biome col = m.biome col.x col.z

variable {c upper : Chunk} {m m' : Picture}

theorem depicts_empty (coord : ChunkCoord) : (empty coord).Depicts .blank :=
  ⟨valid_empty coord, block_empty coord, biome_empty coord⟩

theorem eq_place_iff {x y z : Int} {p q : Place} (h : place x y z = .ok p) :
    q = p ↔ (q.x : Int) = x ∧ (q.y : Int) = y ∧ (q.z : Int) = z := by
  obtain ⟨hx, hy, hz⟩ := place_eq_ok_iff.mp h
  rw [← hx, ← hy, ← hz, ← place_eq_ok_iff, place_self, Except.ok.injEq]
  exact eq_comm

theorem Depicts.setBlock (h : c.Depicts m) (x y z : Int) (b : Block) :
    ((Chunk.setBlock x y z b).outcome c).2.Depicts (m.setBlock x y z b) := by
  unfold Edit.outcome Picture.setBlock
  by_cases hinside : Inside x y z
  · obtain ⟨p, hp⟩ := exists_place hinside
    obtain ⟨hvalid, hblock, hbiome⟩ := put_spec h.valid p b
    rw [setBlock_of_place hp, if_pos hinside]
    refine ⟨hvalid, fun q => ?_, fun col => ?_⟩
    · rw [hblock, h.block]
      simp only [eq_place_iff hp]
    · rw [hbiome, h.biome]
  · rw [setBlock_of_error (place_eq_error hinside), if_neg hinside]
    exact h

theorem eq_column_iff {x z : Int} {col col' : Column} (h : column x z = .ok col) :
    col' = col ↔ (col'.x : Int) = x ∧ (col'.z : Int) = z := by
  obtain ⟨hx, hz⟩ := column_eq_ok_iff.mp h
  rw [← hx, ← hz, ← column_eq_ok_iff, column_self, Except.ok.injEq]
  exact eq_comm

theorem Depicts.setBiome (h : c.Depicts m) (x z : Int) (biome : Int32) :
    ((Chunk.setBiome x z biome).outcome c).2.Depicts (m.setBiome x z biome) := by
  unfold Edit.outcome Picture.setBiome
  by_cases hinside : InsideColumn x z
  · obtain ⟨col, hcol⟩ := exists_column hinside
    obtain ⟨hvalid, hblock, hbiome⟩ := putBiome_spec h.valid col biome
    rw [setBiome_of_column hcol, if_pos hinside]
    refine ⟨hvalid, fun q => ?_, fun col' => ?_⟩
    · rw [hblock, h.block]
    · rw [hbiome, h.biome]
      simp only [eq_column_iff hcol]
  · rw [setBiome_of_error (column_eq_error hinside), if_neg hinside]
    exact h

theorem Depicts.clearColumn (h : c.Depicts m) (x z : Int) :
    ((Chunk.clearColumn x z).outcome c).2.Depicts (m.clearColumn x z) := by
  unfold Edit.outcome Picture.clearColumn
  by_cases hinside : InsideColumn x z
  · obtain ⟨col, hcol⟩ := exists_column hinside
    obtain ⟨hvalid, hblock, hbiome⟩ := clear_spec h.valid col
    rw [clearColumn_of_column hcol, if_pos hinside]
    refine ⟨hvalid, fun q => ?_, fun col' => ?_⟩
    · rw [hblock, h.block]
      simp only [eq_column_iff hcol]
    · rw [hbiome, h.biome]
  · rw [clearColumn_of_error (column_eq_error hinside), if_neg hinside]
    exact h

theorem Depicts.overlay (h : c.Depicts m) (h' : upper.Depicts m') :
    (c.overlay upper).Depicts (m.overlay m') := by
  obtain ⟨hvalid, hblock, hbiome⟩ := overlay_spec h.valid h'.valid
  refine ⟨hvalid, fun q => ?_, fun col => ?_⟩
  · rw [hblock, h.block, h'.block]
    simp only [Block.isAir_iff, Picture.overlay]
  · rw [hbiome, h.biome, h'.biome]
    rfl

/-! ### Questions -/

/-- A chunk is as good as a picture: it is well-formed, answers every question as the picture does,
and refuses a write exactly if its position lies outside, by that position, and then stays as it is.
-/
structure Represents (c : Chunk) (m : Picture) : Prop where
  valid : c.Valid
  block : ∀ x y z, c.block? x y z = if Inside x y z then some (m.block x y z) else none
  biome : ∀ x z, c.biome? x z = if InsideColumn x z then m.biome x z else none
  count : c.blockCount = Nat.card { p : Place // m.block p.x p.y p.z ≠ .air }
  highest : ∀ x z y, c.highest? x z = some y ↔ InsideColumn x z ∧ m.block x y z ≠ .air ∧
    ∀ y' : Fin worldHeight, y < y' → m.block x y' z = .air
  highest_none : ∀ x z, c.highest? x z = none ↔
    (InsideColumn x z → ∀ y : Fin worldHeight, m.block x y z = .air)
  isEmpty : c.isEmpty = true ↔
    (∀ p : Place, m.block p.x p.y p.z = .air) ∧ ∀ col : Column, m.biome col.x col.z = none
  setBlock : ∀ x y z b, if Inside x y z then ∃ c', Chunk.setBlock x y z b c = .ok () c'
    else Chunk.setBlock x y z b c = .error (.error (.misuse x y z)) c
  setBiome : ∀ x z biome, if InsideColumn x z then ∃ c', Chunk.setBiome x z biome c = .ok () c'
    else Chunk.setBiome x z biome c = .error (.error (.misuse x 0 z)) c
  clearColumn : ∀ x z, if InsideColumn x z then ∃ c', Chunk.clearColumn x z c = .ok () c'
    else Chunk.clearColumn x z c = .error (.error (.misuse x 0 z)) c

theorem Depicts.block? (h : c.Depicts m) (x y z : Int) :
    c.block? x y z = if Inside x y z then some (m.block x y z) else none := by
  unfold Chunk.block?
  by_cases hinside : Inside x y z
  · obtain ⟨p, hp⟩ := exists_place hinside
    obtain ⟨hx, hy, hz⟩ := place_eq_ok_iff.mp hp
    rw [hp, if_pos hinside, ← hx, ← hy, ← hz, ← h.block]
    rfl
  · rw [place_eq_error hinside, if_neg hinside]
    rfl

theorem Depicts.biome? (h : c.Depicts m) (x z : Int) :
    c.biome? x z = if InsideColumn x z then m.biome x z else none := by
  unfold Chunk.biome?
  by_cases hinside : InsideColumn x z
  · obtain ⟨col, hcol⟩ := exists_column hinside
    obtain ⟨hx, hz⟩ := column_eq_ok_iff.mp hcol
    rw [hcol, if_pos hinside, ← hx, ← hz, ← h.biome]
    rfl
  · rw [column_eq_error hinside, if_neg hinside]
    rfl

theorem Depicts.block_atHeight (h : c.Depicts m) {x z : Int} {col : Column}
    (hcol : column x z = .ok col) (y : Fin worldHeight) :
    c.block (col.atHeight y) = m.block x y z := by
  obtain ⟨hx, hz⟩ := column_eq_ok_iff.mp hcol
  rw [h.block, ← hx, ← hz]
  rfl

theorem Depicts.highest? (h : c.Depicts m) (x z : Int) (y : Fin worldHeight) :
    c.highest? x z = some y ↔ InsideColumn x z ∧ m.block x y z ≠ .air ∧
      ∀ y' : Fin worldHeight, y < y' → m.block x y' z = .air := by
  unfold Chunk.highest?
  by_cases hinside : InsideColumn x z
  · obtain ⟨col, hcol⟩ := exists_column hinside
    have hblock := h.block_atHeight hcol
    rw [hcol, and_iff_right hinside]
    show c.highest col = some y ↔ _
    rw [highest_eq_some_iff h.valid]
    simp only [hblock]
  · rw [column_eq_error hinside]
    constructor
    · intro hsome
      cases hsome
    · intro hall
      exact absurd hall.1 hinside

theorem Depicts.highest?_eq_none (h : c.Depicts m) (x z : Int) :
    c.highest? x z = none ↔ (InsideColumn x z → ∀ y : Fin worldHeight, m.block x y z = .air) := by
  unfold Chunk.highest?
  by_cases hinside : InsideColumn x z
  · obtain ⟨col, hcol⟩ := exists_column hinside
    have hblock := h.block_atHeight hcol
    rw [hcol, forall_prop_of_true hinside]
    show c.highest col = none ↔ _
    rw [highest_eq_none_iff h.valid]
    simp only [hblock]
  · rw [column_eq_error hinside]
    constructor
    · intro _ hinside'
      exact absurd hinside' hinside
    · intro _
      rfl

/-- A chunk that depicts a picture represents it. -/
theorem Depicts.represents (h : c.Depicts m) : c.Represents m where
  valid := h.valid
  block := h.block?
  biome := h.biome?
  count := by
    rw [blockCount_eq_card h.valid]
    simp only [h.block]
  highest := h.highest?
  highest_none := h.highest?_eq_none
  isEmpty := by
    rw [isEmpty_iff h.valid]
    simp only [h.block, h.biome]
  setBlock x y z b := by
    split
    · rename_i hinside
      obtain ⟨p, hp⟩ := exists_place hinside
      exact ⟨_, setBlock_of_place hp b c⟩
    · rename_i houtside
      exact setBlock_of_error (place_eq_error houtside) b c
  setBiome x z biome := by
    split
    · rename_i hinside
      obtain ⟨col, hcol⟩ := exists_column hinside
      exact ⟨_, setBiome_of_column hcol biome c⟩
    · rename_i houtside
      exact setBiome_of_error (column_eq_error houtside) biome c
  clearColumn x z := by
    split
    · rename_i hinside
      obtain ⟨col, hcol⟩ := exists_column hinside
      exact ⟨_, clearColumn_of_column hcol c⟩
    · rename_i houtside
      exact clearColumn_of_error (column_eq_error houtside) c

end Chunk

/-- **Every chunk depicts its history.** -/
theorem History.depicts (h : History) : h.chunk.Depicts h.picture := by
  induction h with
  | new coord => exact Chunk.depicts_empty coord
  | setBlock h x y z b ih => exact ih.setBlock x y z b
  | setBiome h x z biome ih => exact ih.setBiome x z biome
  | clearColumn h x z ih => exact ih.clearColumn x z
  | overlay h upper ih ih' => exact ih.overlay ih'

/-- **A chunk is a faithful map of blocks and biomes**, whatever was written to it in whatever
order. -/
theorem History.chunk_represents (h : History) : h.chunk.Represents h.picture :=
  h.depicts.represents

end Cadastre
