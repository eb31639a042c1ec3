import Cadastre.Proofs.Chunk.History
import Cadastre.Proofs.Layout.Building
/-!
# Cadastre.Proofs.Layout.Content

**What building leaves in a chunk, column by column.** On fresh ground a column holds the layers of
what it is (`Area.blockAt`) if the area claims and owns it, and nothing otherwise
(`Area.chunk_content`). Over other content, an owned column comes out with the same blocks as on
fresh ground, and any other column stays as it was (`Area.buildInto_overwrite`).
-/

namespace Cadastre

namespace Area

variable {a : Area} {coord : ChunkCoord} {m : Merges}

/-- The block at a height of a column that the area builds as what it is. -/
def blockAt (a : Area) (ground : Ground) (worldX worldZ : Int32) (y : Nat) : Block :=
  if y = 0 then if a.bedrock then .bedrock else .air
  else
    match ground with
    | .plot _ =>
      if y < a.plotHeight then a.main.pick worldX (Int32.ofNat y) worldZ
      else if y = a.plotHeight then a.floor.pick worldX (Int32.ofNat y) worldZ
      else .air
    | .road => if y ≤ a.roadHeight then a.road.pick worldX (Int32.ofNat y) worldZ else .air
    | .wall _ _ =>
      if y < a.wallHeight then a.wallFilling.pick worldX (Int32.ofNat y) worldZ
      else if y = a.wallHeight then a.wallBorder.pick worldX (Int32.ofNat y) worldZ
      else .air

/-- The layers of a column with air above them. -/
theorem layer?_getD (ground : Ground) (worldX worldZ : Int32) (y : Nat) :
    (a.layer? ground worldX worldZ y).getD .air = a.blockAt ground worldX worldZ y := by
  have hlayers (height : Nat) (filling top : Block) :
      (if y < height then some filling else if y = height then some top else none).getD .air =
        if y < height then filling else if y = height then top else .air := by
    split_ifs <;> rfl
  unfold layer? blockAt
  by_cases hzero : y = 0
  · rw [if_pos hzero, if_pos hzero]
    split <;> rfl
  · rw [if_neg hzero, if_neg hzero]
    cases ground with
    | plot id => exact hlayers a.plotHeight _ _
    | road =>
        refine (hlayers a.roadHeight (a.road.pick worldX (Int32.ofNat y) worldZ)
          (a.road.pick worldX (Int32.ofNat y) worldZ)).trans ?_
        dsimp only
        -- Filling and top are of one bucket, so the two heights fall together.
        rcases Nat.lt_trichotomy y a.roadHeight with hlt | heq | hgt
        · rw [if_pos hlt, if_pos hlt.le]
        · rw [if_neg (Nat.not_lt.mpr heq.ge), if_pos heq, if_pos heq.le]
        · rw [if_neg (Nat.lt_asymm hgt), if_neg hgt.ne', if_neg (Nat.not_le.mpr hgt)]
    | wall owner segment => exact hlayers a.wallHeight _ _

/-- Where the area has a grid, every column of a chunk is claimed or not and is something, and these
decide whether and how it is built. -/
theorem exists_built {g : Grid} (hg : a.grid = .ok g) (coord : ChunkCoord) (m : Merges)
    (col : Column) :
    ∃ claimed ground, a.isClaimed (col.worldX coord) (col.worldZ coord) = .ok claimed ∧
      a.mergedGround m (col.worldX coord) (col.worldZ coord) = .ok ground ∧
      a.builtGround? coord m col = if claimed && a.owns ground then some ground else none := by
  obtain ⟨ground, hground⟩ := g.exists_mergedGround (a.isMerged m) (col.worldX coord)
    (col.worldZ coord)
  rw [← mergedGround_eq_of_grid hg] at hground
  have hclaimed := isClaimed_eq_of_grid hg (col.worldX coord) (col.worldZ coord)
  exact ⟨_, ground, hclaimed, hground, builtGround?_of_ground hclaimed hground⟩

variable {c c' : Chunk} {fill : Fill} {col : Column}

/-- A column that the area does not build comes out as it went in. -/
theorem column_of_not_built (hcovers : (a.coat coord m fill).Covers c c') (hc : c.Valid)
    (hbuilt : a.builtGround? coord m col = none) :
    (∀ y : Fin worldHeight, c'.block? col.x y col.z = c.block? col.x y col.z) ∧
      c'.biome? col.x col.z = c.biome? col.x col.z := by
  constructor
  · intro y
    rw [Chunk.block?_column, Chunk.block?_column, hcovers.block hc]
    simp only [coat, hbuilt, Option.bind_none, Option.getD_none]
  · rw [Chunk.biome?_column, Chunk.biome?_column, hcovers.biome]
    simp only [coat, hbuilt, Option.bind_none, Option.none_or]

/-- A column that the area builds comes out as its layers, if it was air or is cleared first. The
biome is the area's, unless the area leaves biomes alone. -/
theorem column_of_built (hcovers : (a.coat coord m fill).Covers c c') (hc : c.Valid)
    {ground : Ground} (hbuilt : a.builtGround? coord m col = some ground)
    (hair : fill = .overwrite ∨ ∀ y, c.block (col.atHeight y) = .air) :
    (∀ y : Fin worldHeight, c'.block? col.x y col.z =
        some (a.blockAt ground (col.worldX coord) (col.worldZ coord) y)) ∧
      c'.biome? col.x col.z =
        if a.terrain = .roads then c.biome? col.x col.z else some a.biome := by
  constructor
  · intro y
    rw [Chunk.block?_column, hcovers.block hc, ← layer?_getD]
    simp only [coat, hbuilt, Option.bind_some, Option.getD_or]
    -- Above the layers there is the air of a cleared column or what was air before.
    rcases hair with rfl | hair
    · rfl
    · rw [hair y]
      split <;> rfl
  · rw [Chunk.biome?_column, Chunk.biome?_column, hcovers.biome]
    simp only [coat, hbuilt, Option.bind_some]
    split <;> rfl

/-- **The content of a chunk.** In an area whose period is in range, every chunk has a content: none
of its writes is refused. Each column is decided by the world column it stands for and by what that
is under the merges. If the area claims it and owns what it is, the column holds the layers of that,
and the area's biome unless the area leaves biomes alone. Any other column is air and has no biome.
-/
theorem chunk_content (a : Area) (hfits : Fits (a.plotSize.toInt + a.roadWidth.toInt))
    (coord : ChunkCoord) (m : Merges) :
    ∃ c, a.chunk coord m = .ok c ∧ c.coord = coord ∧ ∀ col : Column, ∃ claimed ground,
      a.isClaimed (col.worldX coord) (col.worldZ coord) = .ok claimed ∧
      a.mergedGround m (col.worldX coord) (col.worldZ coord) = .ok ground ∧
      if claimed && a.owns ground then
        (∀ y : Fin worldHeight, c.block? col.x y col.z =
          some (a.blockAt ground (col.worldX coord) (col.worldZ coord) y)) ∧
        c.biome? col.x col.z = if a.terrain = .roads then none else some a.biome
      else
        (∀ y : Fin worldHeight, c.block? col.x y col.z = some .air) ∧
        c.biome? col.x col.z = none := by
  obtain ⟨g, hg, -⟩ := exists_grid hfits
  obtain ⟨count, c, hbuild, -, hcovers⟩ := buildInto_ends hg m .fresh (Chunk.empty coord)
  have hvalid := Chunk.valid_empty coord
  refine ⟨c, ?_, hcovers.coord, fun col => ?_⟩
  · unfold chunk Edit.outcome
    rw [hbuild]
  obtain ⟨claimed, ground, hclaimed, hground, hbuilt⟩ := exists_built hg coord m col
  refine ⟨claimed, ground, hclaimed, hground, ?_⟩
  have hblank : (Chunk.empty coord).biome? col.x col.z = none := by
    rw [Chunk.biome?_column, Chunk.biome_empty]
  by_cases hown : (claimed && a.owns ground) = true
  · rw [if_pos hown] at hbuilt ⊢
    rw [← hblank]
    exact column_of_built hcovers hvalid hbuilt
      (.inr fun y => Chunk.block_empty coord (col.atHeight y))
  · rw [if_neg hown] at hbuilt ⊢
    rw [← hblank]
    obtain ⟨hblock, hbiome⟩ := column_of_not_built hcovers hvalid hbuilt
    refine ⟨fun y => ?_, hbiome⟩
    rw [hblock, Chunk.block?_column, Chunk.block_empty]

/-- A column on the east wall of a plot, in a chunk north of the origin. -/
theorem chunk_content_wall :
    Fits (standard.plotSize.toInt + standard.roadWidth.toInt) ∧
      ∃ c, standard.chunk ⟨2, -1⟩ .none = .ok c ∧
        standard.mergedGround .none 36 (-11) = .ok (.wall ⟨0, -1⟩ (.edge .east)) ∧
        c.block? 4 0 5 = some .bedrock ∧ c.block? 4 64 5 = some .stone ∧
        c.block? 4 65 5 = some .stoneSlab ∧ c.block? 4 66 5 = some .air ∧
        c.biome? 4 5 = some 1 := by
  refine ⟨by decide, ?_⟩
  obtain ⟨c, hc, -, hcols⟩ := chunk_content standard (by decide) ⟨2, -1⟩ .none
  obtain ⟨claimed, ground, hclaimed, hground, hcol⟩ := hcols ⟨4, 5⟩
  have hclaims : standard.isClaimed 36 (-11) = .ok true := rfl
  have hwall : standard.mergedGround .none 36 (-11) = .ok (.wall ⟨0, -1⟩ (.edge .east)) := rfl
  cases hclaims.symm.trans hclaimed
  cases hwall.symm.trans hground
  rw [if_pos (by decide)] at hcol
  obtain ⟨hblock, hbiome⟩ := hcol
  exact ⟨c, hc, hwall, hblock ⟨0, by decide⟩, hblock ⟨64, by decide⟩, hblock ⟨65, by decide⟩,
    hblock ⟨66, by decide⟩, hbiome⟩

/-- **Building over a chunk.** Let a chunk have been made by any writes, and let the area be built
over it. If the area claims a column and owns what it is, the column comes out with the blocks that
it has on fresh ground, whatever was there, and with the area's biome, or with its own where the
area leaves biomes alone. Any other column keeps its blocks and its biome. The answer is the number
of columns of the first kind. -/
theorem buildInto_overwrite (a : Area) (hfits : Fits (a.plotSize.toInt + a.roadWidth.toInt))
    (coord : ChunkCoord) (m : Merges) (h : History) :
    ∃ fresh c, a.chunk coord m = .ok fresh ∧
      a.buildInto coord m .overwrite h.chunk = .ok (a.ownedColumns coord m) c ∧
      c.coord = h.chunk.coord ∧ ∀ col : Column, ∃ claimed ground,
        a.isClaimed (col.worldX coord) (col.worldZ coord) = .ok claimed ∧
        a.mergedGround m (col.worldX coord) (col.worldZ coord) = .ok ground ∧
        a.ownsColumn coord m col = (claimed && a.owns ground) ∧
        if a.ownsColumn coord m col then
          (∀ y : Fin worldHeight, c.block? col.x y col.z = fresh.block? col.x y col.z) ∧
          c.biome? col.x col.z =
            if a.terrain = .roads then h.chunk.biome? col.x col.z else some a.biome
        else
          (∀ y : Fin worldHeight, c.block? col.x y col.z = h.chunk.block? col.x y col.z) ∧
          c.biome? col.x col.z = h.chunk.biome? col.x col.z := by
  obtain ⟨g, hg, -⟩ := exists_grid hfits
  obtain ⟨_, fresh, hfresh, rfl, hcoversFresh⟩ := buildInto_ends hg m .fresh (Chunk.empty coord)
  obtain ⟨_, c, hbuild, rfl, hcovers⟩ := buildInto_ends hg m .overwrite h.chunk
  refine ⟨fresh, c, ?_, hbuild, hcovers.coord, fun col => ?_⟩
  · unfold chunk Edit.outcome
    rw [hfresh]
  obtain ⟨claimed, ground, hclaimed, hground, hbuilt⟩ := exists_built hg coord m col
  have howns : a.ownsColumn coord m col = (claimed && a.owns ground) := by
    unfold ownsColumn
    rw [hclaimed, hground]
  refine ⟨claimed, ground, hclaimed, hground, howns, ?_⟩
  rw [howns]
  by_cases hown : (claimed && a.owns ground) = true
  · rw [if_pos hown] at hbuilt ⊢
    obtain ⟨hblockFresh, -⟩ := column_of_built hcoversFresh (Chunk.valid_empty coord) hbuilt
      (.inr fun y => Chunk.block_empty coord (col.atHeight y))
    obtain ⟨hblock, hbiome⟩ := column_of_built hcovers h.depicts.valid hbuilt (.inl rfl)
    refine ⟨fun y => ?_, hbiome⟩
    rw [hblock, hblockFresh]
  · rw [if_neg hown] at hbuilt ⊢
    exact column_of_not_built hcovers h.depicts.valid hbuilt

/-- The standard area, which leaves the roads of its world and the biomes alone. -/
def preserving : Area := { standard with terrain := .roads }

/-- A chunk with a biome and a block on a wall and a block on a road. -/
def settled : History :=
  (((History.new ⟨2, -1⟩).setBiome 4 5 7).setBlock 4 70 5 .stone).setBlock 6 70 5 .stone

/-- The wall is built anew up to the top of the world and keeps its biome, the road keeps its block.
-/
theorem buildInto_overwrite_settled :
    Fits (preserving.plotSize.toInt + preserving.roadWidth.toInt) ∧
      ∃ fresh c, preserving.chunk ⟨2, -1⟩ .none = .ok fresh ∧
        preserving.buildInto ⟨2, -1⟩ .none .overwrite settled.chunk =
          .ok (preserving.ownedColumns ⟨2, -1⟩ .none) c ∧
        (∀ y : Fin worldHeight, c.block? 4 y 5 = fresh.block? 4 y 5) ∧ c.biome? 4 5 = some 7 ∧
        c.block? 6 70 5 = some .stone := by
  refine ⟨by decide, ?_⟩
  obtain ⟨fresh, c, hfresh, hbuild, -, hcols⟩ :=
    buildInto_overwrite preserving (by decide) ⟨2, -1⟩ .none settled
  obtain ⟨-, -, -, -, -, hwall⟩ := hcols ⟨4, 5⟩
  obtain ⟨-, -, -, -, -, hroad⟩ := hcols ⟨6, 5⟩
  have howned : preserving.ownsColumn ⟨2, -1⟩ .none ⟨4, 5⟩ = true := rfl
  have hleft : preserving.ownsColumn ⟨2, -1⟩ .none ⟨6, 5⟩ = false := rfl
  rw [if_pos howned] at hwall
  rw [hleft, if_neg Bool.false_ne_true] at hroad
  obtain ⟨hblock, hbiome⟩ := hwall
  have hkeptBiome : settled.chunk.biome? 4 5 = some 7 := by
    rw [settled.depicts.biome?, if_pos (by decide)]
    rfl
  have hkeptBlock : settled.chunk.block? 6 70 5 = some .stone := by
    rw [settled.depicts.block?, if_pos (by decide)]
    rfl
  exact ⟨fresh, c, hfresh, hbuild, hblock, hbiome.trans hkeptBiome,
    (hroad.1 ⟨70, by decide⟩).trans hkeptBlock⟩

end Area

end Cadastre
