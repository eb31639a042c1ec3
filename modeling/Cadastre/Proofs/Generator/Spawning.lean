import Cadastre.Proofs.Generator.Fallback
import Cadastre.Proofs.Layout.Content
/-!
# Cadastre.Proofs.Generator.Spawning

**Ground to stand on.** What a column is decides two things independently of each other: whether
somebody may be put down on it, and what is built there. This module compares the two. On a column
that a replacing generator permits and its area claims there is ground just where the area owns the
column: on plots always, on roads only if nothing is left to foreign terrain
(`Generator.spawn_ground`). Beyond that, permission promises no ground.
-/

namespace Cadastre

variable {κ σ : Type}

/-! ### Buckets without air -/

theorem Bucket.blockAt_mem (current : Share) (rest : List Share) (place : Nat) :
    Bucket.blockAt current rest place ∈ (current :: rest).map Share.block := by
  induction rest generalizing current place with
  | nil => exact List.mem_singleton_self _
  | cons next rest ih =>
      unfold Bucket.blockAt
      split
      · exact List.mem_cons_self
      · exact List.mem_cons_of_mem _ (ih next _)

/-- What a bucket gives is one of its blocks. -/
theorem Bucket.pick_mem (b : Bucket) (x y z : Int32) : b.pick x y z ∈ b.blocks :=
  blockAt_mem b.first b.rest _

namespace Area

/-- Whether no bucket of an area holds air. -/
def Solid (a : Area) : Prop :=
  ∀ bucket ∈ [a.floor, a.main, a.wallFilling, a.wallBorder, a.road], Block.air ∉ bucket.blocks

instance (a : Area) : Decidable a.Solid :=
  inferInstanceAs (Decidable (∀ bucket ∈ _, _))

/-- Where no bucket holds air, a column that is no wall is topped with a block. -/
theorem blockAt_top {a : Area} (hsolid : a.Solid) {ground : Ground} (hwall : ground.isWall = false)
    (worldX worldZ : Int32) : ∃ y : Fin worldHeight, a.blockAt ground worldX worldZ y ≠ .air := by
  have hpick {bucket : Bucket} (h : Block.air ∉ bucket.blocks) (y : Int32) :
      bucket.pick worldX y worldZ ≠ .air := fun hair => h (hair ▸ bucket.pick_mem worldX y worldZ)
  unfold blockAt
  cases ground with
  | plot id =>
      obtain ⟨hpos, hlt⟩ := a.plotHeight.property
      refine ⟨⟨a.plotHeight, hlt⟩, ?_⟩
      simp only [if_neg (Nat.one_le_iff_ne_zero.mp hpos), lt_irrefl, if_false, if_true]
      exact hpick (hsolid a.floor (by simp)) _
  | road =>
      obtain ⟨hpos, hlt⟩ := a.roadHeight.property
      refine ⟨⟨a.roadHeight, hlt⟩, ?_⟩
      simp only [if_neg (Nat.one_le_iff_ne_zero.mp hpos), le_refl, if_true]
      exact hpick (hsolid a.road (by simp)) _
  | wall owner segment => cases hwall

/-- What an area owns of the columns that are no walls. -/
theorem owns_iff (a : Area) {ground : Ground} (hwall : ground.isWall = false) :
    a.owns ground = true ↔ ground.isPlot = true ∨ a.terrain = .nothing := by
  unfold owns
  cases ground with
  | plot id => simp [Ground.isPlot]
  | road => cases a.terrain <;> simp [Ground.isPlot]
  | wall owner segment => cases hwall

/-- The blocks of a column of an area's content, by what the column is. -/
theorem block_of_chunk {a : Area} {g : Grid} (hg : a.grid = .ok g) {coord : ChunkCoord} {m : Merges}
    {c : Chunk} (hc : a.chunk coord m = .ok c) (col : Column) :
    ∃ claimed ground, a.isClaimed (col.worldX coord) (col.worldZ coord) = .ok claimed ∧
      a.mergedGround m (col.worldX coord) (col.worldZ coord) = .ok ground ∧
      ∀ y : Fin worldHeight, c.block? col.x y col.z =
        some (if claimed && a.owns ground then
          a.blockAt ground (col.worldX coord) (col.worldZ coord) y else .air) := by
  obtain ⟨count, c', hbuild, -, hcovers⟩ := buildInto_ends hg m .fresh (Chunk.empty coord)
  unfold chunk Edit.outcome at hc
  rw [hbuild] at hc
  cases hc
  obtain ⟨claimed, ground, hclaimed, hground, hbuilt⟩ := exists_built hg coord m col
  refine ⟨claimed, ground, hclaimed, hground, fun y => ?_⟩
  have hvalid := Chunk.valid_empty coord
  by_cases hown : (claimed && a.owns ground) = true
  · rw [if_pos hown] at hbuilt ⊢
    exact (column_of_built hcovers hvalid hbuilt
      (.inr fun y => Chunk.block_empty coord (col.atHeight y))).1 y
  · rw [if_neg hown] at hbuilt ⊢
    rw [(column_of_not_built hcovers hvalid hbuilt).1 y, Chunk.block?_column, Chunk.block_empty]

end Area

namespace Generator

variable {a : Area} {s : Site κ σ} {world : String} {x z : Int32} {permitted : Bool}

/-- Whoever may be put down on a column or not, the plots near it can be listed, and the column is
no wall or one. -/
theorem exists_ground_of_canSpawn {name : String} {loaded : List String}
    (ha : s.areas[world]? = some a)
    (hspawn : canSpawn ⟨name, .replacing, {}, loaded⟩ s world x z = .ok permitted) :
    ∃ ids ground, a.plotsNear (.containing x z) = .ok ids ∧
      a.mergedGround s.merges.merges x z = .ok ground ∧ permitted = !ground.isWall := by
  unfold canSpawn at hspawn
  simp only [ha] at hspawn
  obtain ⟨m, hm, hspawn⟩ := exists_of_bind_eq_ok hspawn
  obtain ⟨ground, hground, hspawn⟩ := exists_of_bind_eq_ok hspawn
  cases hspawn
  obtain ⟨ids, hnear, -⟩ := exists_of_bind_eq_ok hm
  cases hm.symm.trans (prefetch_eq hnear)
  -- The merges that were read give the column the ground that all merges give it.
  obtain ⟨col, hx, hz⟩ := Column.exists_containing x z
  have hselect := Area.mergedGround_select hnear s.merges col
  rw [hx, hz] at hselect
  exact ⟨ids, ground, hnear, hselect.symm.trans hground, rfl⟩

/-- What a column is decides both whether somebody may be put down on it and what a request for its
chunk leaves there. -/
theorem spawn_column (name : String) (loaded : List String) (ha : s.areas[world]? = some a)
    (hspawn : canSpawn ⟨name, .replacing, {}, loaded⟩ s world x z = .ok permitted) :
    ∃ columns g' s' c col claimed ground,
      request world (.containing x z) (⟨name, .replacing, {}, loaded⟩, s) =
        .ok (.generated columns) (g', s') ∧
      (s'.queue world).pendingChunk? (.containing x z) = some c ∧
      Column.worldX col (.containing x z) = x ∧ Column.worldZ col (.containing x z) = z ∧
      a.isClaimed x z = .ok claimed ∧ a.mergedGround s.merges.merges x z = .ok ground ∧
      permitted = !ground.isWall ∧
      ∀ y : Fin worldHeight, c.block? col.x y col.z =
        some (if claimed && a.owns ground then a.blockAt ground x z y else .air) := by
  obtain ⟨ids, ground, hnear, hground, hpermitted⟩ := exists_ground_of_canSpawn ha hspawn
  have hanswer : Edit.Ends (request world (.containing x z))
      ((⟨name, .replacing, {}, loaded⟩ : Generator σ), s) fun result t =>
        Built a world (.containing x z) s.merges.merges .generated result t.2 := by
    refine request_ends fun g' s' hmode hhooks hareas hmerges _ => ?_
    rw [← hareas] at ha
    rw [← hmerges]
    exact build_ends ha hnear hmode hhooks
  obtain ⟨_, ⟨g', s'⟩, hrequest, rfl, c, hc, hpending⟩ := hanswer
  obtain ⟨grid, hgrid⟩ := Area.exists_grid_of_plotsNear hnear
  obtain ⟨col, hx, hz⟩ := Column.exists_containing x z
  obtain ⟨claimed, ground', hclaimed, hground', hblocks⟩ := Area.block_of_chunk hgrid hc col
  rw [hx, hz] at hclaimed hground' hblocks
  cases hground.symm.trans hground'
  exact ⟨_, g', s', c, col, claimed, ground, hrequest, hpending, hx, hz, hclaimed, hground,
    hpermitted, hblocks⟩

/-- **Ground to stand on.** Let a replacing generator without hooks serve a world whose area has no
air in its buckets, and let it permit somebody on a column that the area claims. The column is a
plot or a road, and a request for its chunk is answered. If it is a plot, or the area leaves nothing
to foreign terrain, the column that is then pending holds a block; on all other roads it is air from
bottom to top. -/
theorem spawn_ground (name : String) (loaded : List String) (s : Site κ σ) (world : String)
    (a : Area) (ha : s.areas[world]? = some a) (hsolid : a.Solid) (x z : Int32)
    (hspawn : canSpawn ⟨name, .replacing, {}, loaded⟩ s world x z = .ok true)
    (hclaimed : a.isClaimed x z = .ok true) :
    ∃ columns g' s' c col ground,
      request world (.containing x z) (⟨name, .replacing, {}, loaded⟩, s) =
        .ok (.generated columns) (g', s') ∧
      (s'.queue world).pendingChunk? (.containing x z) = some c ∧
      Column.worldX col (.containing x z) = x ∧ Column.worldZ col (.containing x z) = z ∧
      a.mergedGround s.merges.merges x z = .ok ground ∧ ground.isWall = false ∧
      ((∃ (y : Fin worldHeight) (b : Block), c.block? col.x y col.z = some b ∧ b ≠ .air) ↔
        ground.isPlot = true ∨ a.terrain = .nothing) := by
  obtain ⟨columns, g', s', c, col, claimed, ground, hrequest, hpending, hx, hz, hclaimed', hground,
    hpermitted, hblocks⟩ := spawn_column name loaded ha hspawn
  cases hclaimed.symm.trans hclaimed'
  have hwall : ground.isWall = false := by simpa using hpermitted
  refine ⟨columns, g', s', c, col, ground, hrequest, hpending, hx, hz, hground, hwall, ?_⟩
  rw [← a.owns_iff hwall]
  simp only [hblocks, Bool.true_and]
  constructor
  · rintro ⟨y, b, hb, hsome⟩
    by_contra hleft
    rw [if_neg hleft] at hb
    exact hsome (Option.some_inj.mp hb).symm
  · intro howns
    obtain ⟨y, hy⟩ := Area.blockAt_top hsolid hwall x z
    exact ⟨y, _, by rw [if_pos howns], hy⟩

/-- A site with one area and nothing merged. -/
def siteOf (a : Area) : Site Unit Unit where
  areas := ({} : Std.TreeMap String Area).insert "plotworld" a
  host := ()

theorem areas_siteOf (a : Area) : (siteOf a).areas["plotworld"]? = some a :=
  Std.TreeMap.getElem?_insert_self

/-- The standard area, cut down to the plots around the origin. -/
def cornered : Area :=
  { Area.standard with bounds := some ⟨⟨-1, -1⟩, ⟨0, 0⟩, by decide, by decide⟩ }

theorem spawn_ground_cornered :
    cornered.Solid ∧
      canSpawn ⟨"plotweave", .replacing, {}, []⟩ (siteOf cornered) "plotworld" (-20) 35 = .ok true ∧
      cornered.isClaimed (-20) 35 = .ok true ∧
      ∃ c col, Column.worldX col (.containing (-20) 35) = -20 ∧
        Column.worldZ col (.containing (-20) 35) = 35 ∧
        ∃ (y : Fin worldHeight) (b : Block), Chunk.block? c col.x y col.z = some b ∧ b ≠ .air := by
  have hspawn : canSpawn ⟨"plotweave", .replacing, {}, []⟩ (siteOf cornered) "plotworld" (-20) 35 =
      .ok true := by
    unfold canSpawn
    rw [areas_siteOf]
    rfl
  have hsolid : cornered.Solid := by decide
  obtain ⟨_, _, _, c, col, ground, -, -, hx, hz, -, -, hground⟩ :=
    spawn_ground "plotweave" [] (siteOf cornered) "plotworld" cornered (areas_siteOf _) hsolid
      (-20) 35 hspawn (by decide)
  exact ⟨hsolid, hspawn, by decide, c, col, hx, hz, hground.mpr (.inr rfl)⟩

/-- Somebody may be put down on a column of the world that a request for its chunk leaves air from
bottom to top. -/
def SpawnsInAir (a : Area) (x z : Int32) : Prop :=
  canSpawn ⟨"plotweave", .replacing, {}, []⟩ (siteOf a) "plotworld" x z = .ok true ∧
    ∃ columns g' s' c col,
      request "plotworld" (.containing x z) (⟨"plotweave", .replacing, {}, []⟩, siteOf a) =
        .ok (.generated columns) (g', s') ∧
      (s'.queue "plotworld").pendingChunk? (.containing x z) = some c ∧
      Column.worldX col (.containing x z) = x ∧ Column.worldZ col (.containing x z) = z ∧
      ∀ y : Fin worldHeight, c.block? col.x y col.z = some .air

/-- **Permission without ground.** On a road that is left to foreign terrain, and on a plot beyond
the bounds of its area, somebody may be put down, and there is nothing to stand on. -/
theorem spawn_in_air :
    Area.preserving.Solid ∧
      Fits (Area.preserving.plotSize.toInt + Area.preserving.roadWidth.toInt) ∧
      Area.preserving.mergedGround .none 38 (-11) = .ok .road ∧
      SpawnsInAir Area.preserving 38 (-11) ∧
    cornered.Solid ∧ Fits (cornered.plotSize.toInt + cornered.roadWidth.toInt) ∧
      cornered.mergedGround .none 90 10 = .ok (.plot ⟨2, 0⟩) ∧ SpawnsInAir cornered 90 10 := by
  have hair {a : Area} {x z : Int32}
      (hspawn : canSpawn ⟨"plotweave", .replacing, {}, []⟩ (siteOf a) "plotworld" x z = .ok true)
      (hleft : ∀ claimed ground, a.isClaimed x z = .ok claimed →
        a.mergedGround .none x z = .ok ground → (claimed && a.owns ground) = false) :
      SpawnsInAir a x z := by
    obtain ⟨columns, g', s', c, col, claimed, ground, hrequest, hpending, hx, hz, hclaimed,
      hground, -, hblocks⟩ := spawn_column "plotweave" [] (areas_siteOf a) hspawn
    refine ⟨hspawn, columns, g', s', c, col, hrequest, hpending, hx, hz, fun y => ?_⟩
    rw [hblocks, hleft claimed ground hclaimed hground, if_neg Bool.false_ne_true]
  refine ⟨by decide, by decide, rfl, hair ?_ ?_, by decide, by decide, rfl, hair ?_ ?_⟩
  · unfold canSpawn
    rw [areas_siteOf]
    rfl
  · intro claimed ground _ hground
    cases hground
    exact Bool.and_false _
  · unfold canSpawn
    rw [areas_siteOf]
    rfl
  · intro claimed ground hclaimed _
    cases hclaimed
    rfl

end Generator

end Cadastre
