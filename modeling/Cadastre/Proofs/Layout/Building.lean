import Cadastre.Layout
import Cadastre.Proofs.Chunk.Coat
import Cadastre.Proofs.Chunk.Column
import Cadastre.Proofs.Edit
import Cadastre.Proofs.Merge.Crossing
/-!
# Cadastre.Proofs.Layout.Building

**Building an area in a chunk never fails** where the area has a grid: all its writes lie inside the
chunk. The answer is the number of columns that the area claims and owns (`Area.ownedColumns`), and
what is left is the chunk under the area's coat (`Area.coat`). The merges matter only through the
ground of the chunk's columns.
-/

namespace Cadastre

namespace Area

variable {a : Area} {coord : ChunkCoord} {m : Merges}

/-- Whether the area claims a column of a chunk and owns what it is. -/
def ownsColumn (a : Area) (coord : ChunkCoord) (m : Merges) (col : Column) : Bool :=
  match a.isClaimed (col.worldX coord) (col.worldZ coord),
    a.mergedGround m (col.worldX coord) (col.worldZ coord) with
  | .ok claimed, .ok ground => claimed && a.owns ground
  | _, _ => false

/-- The number of columns of a chunk that the area claims and owns. -/
def ownedColumns (a : Area) (coord : ChunkCoord) (m : Merges) : Nat :=
  Fintype.card { col : Column // a.ownsColumn coord m col = true }

/-! ### What building leaves -/

/-- What is put at the lowest height of a column. -/
def lowest? (a : Area) (y : Nat) : Option Block :=
  if y = 0 then if a.bedrock then some .bedrock else none else none

/-- The block that the area puts at a height of a column, if it puts one there. -/
def layer? (a : Area) (ground : Ground) (worldX worldZ : Int32) (y : Nat) : Option Block :=
  let s := a.strata ground
  if y = 0 then if a.bedrock then some .bedrock else none
  else if y < s.height then some (s.filling.pick worldX (Int32.ofNat y) worldZ)
  else if y = s.height then some (s.top.pick worldX (Int32.ofNat y) worldZ)
  else none

/-- The ground of a column of a chunk, if the area builds the column. -/
def builtGround? (a : Area) (coord : ChunkCoord) (m : Merges) (col : Column) : Option Ground :=
  match a.isClaimed (col.worldX coord) (col.worldZ coord),
    a.mergedGround m (col.worldX coord) (col.worldZ coord) with
  | .ok true, .ok ground => if a.owns ground then some ground else none
  | _, _ => none

/-- Everything that building leaves in a chunk. -/
def coat (a : Area) (coord : ChunkCoord) (m : Merges) (fill : Fill) : Coat where
  block col y := (a.builtGround? coord m col).bind fun ground =>
    (a.layer? ground (col.worldX coord) (col.worldZ coord) y).or
      (if fill = .overwrite then some .air else none)
  biome col := (a.builtGround? coord m col).bind fun _ =>
    if a.terrain = .roads then none else some a.biome

/-! ### Merges -/

section Congr

variable {m' : Merges} (h : ∀ col : Column,
  a.mergedGround m (col.worldX coord) (col.worldZ coord) =
    a.mergedGround m' (col.worldX coord) (col.worldZ coord))

include h

/-- Building looks at the merges only for the ground of the chunk's columns. -/
theorem buildInto_congr {σ : Type} [ChunkWriter σ] (fill : Fill) :
    (a.buildInto coord m fill : Edit σ Nat) = a.buildInto coord m' fill := by
  unfold buildInto
  cases hg : a.grid with
  | error e => rw [Edit.liftM_error_bind, Edit.liftM_error_bind]
  | ok g =>
      have hcol (col : Column) : (a.buildIfOwned g m coord fill col : Edit σ Bool) =
          a.buildIfOwned g m' coord fill col := by
        have hground := h col
        rw [mergedGround_eq_of_grid hg, mergedGround_eq_of_grid hg] at hground
        unfold buildIfOwned
        rw [hground]
      rw [Edit.liftM_ok_bind, Edit.liftM_ok_bind]
      simp only [hcol]

theorem chunk_congr : a.chunk coord m = a.chunk coord m' := by
  unfold chunk
  rw [buildInto_congr h]

theorem ownedColumns_congr : a.ownedColumns coord m = a.ownedColumns coord m' := by
  have hcol (col : Column) : a.ownsColumn coord m col = a.ownsColumn coord m' col := by
    unfold ownsColumn
    rw [h col]
  unfold ownedColumns
  simp only [hcol]

end Congr

/-! ### Writes -/

/-- A write into a column of the chunk, below the top of the world. -/
theorem setBlock_ends (col : Column) {y : Nat} (hy : y < worldHeight) (b : Block) (c : Chunk) :
    Edit.Ends (ChunkWriter.setBlock col.x y col.z b) c fun _ c' =>
      (Coat.on col (fun y' => if y' = y then some b else none) none).Covers c c' :=
  ⟨(), _, Chunk.setBlock_of_place (Chunk.place_self (col.atHeight ⟨y, hy⟩)) b c,
    Coat.put_covers c col ⟨y, hy⟩ b⟩

theorem clearColumn_ends (col : Column) (c : Chunk) :
    Edit.Ends (ChunkWriter.clearColumn col.x col.z) c fun _ c' =>
      (Coat.on col (fun _ => some .air) none).Covers c c' :=
  ⟨(), _, Chunk.clearColumn_of_column (Chunk.column_self col) c, Coat.clear_covers c col⟩

theorem setBiome_ends (col : Column) (biome : Int32) (c : Chunk) :
    Edit.Ends (ChunkWriter.setBiome col.x col.z biome) c fun _ c' =>
      (Coat.on col (fun _ => none) (some biome)).Covers c c' :=
  ⟨(), _, Chunk.setBiome_of_column (Chunk.column_self col) biome c,
    Coat.putBiome_covers c col biome⟩

/-- Writing one block after the other at some heights of a column. -/
theorem setBlocks_ends (col : Column) (f : Nat → Block) {l : List Nat}
    (hl : ∀ y ∈ l, y < worldHeight) (c : Chunk) :
    Edit.Ends (l.forM fun y => ChunkWriter.setBlock col.x y col.z (f y)) c fun _ c' =>
      (Coat.on col (fun y => if y ∈ l then some (f y) else none) none).Covers c c' := by
  induction l generalizing c with
  | nil =>
      refine Edit.ends_pure ?_
      simp only [List.not_mem_nil, if_false, Coat.on_none]
      exact Coat.bare_covers c
  | cons y rest ih =>
      have hrest : ∀ y' ∈ rest, y' < worldHeight := fun y' hy' => hl y' (List.mem_cons_of_mem y hy')
      refine (setBlock_ends col (hl y List.mem_cons_self) (f y) c).bind fun _ c' hfirst => ?_
      refine (ih hrest c').mono fun _ c'' hothers => ?_
      refine (hfirst.trans_on hothers).congr fun y' => ?_
      by_cases hy : y' = y
      · subst hy
        by_cases hmem : y' ∈ rest <;> simp [hmem]
      · simp [hy]

/-- The layers of a column are the lowest block, the filling over it and the top over both. -/
theorem layer?_eq (ground : Ground) (worldX worldZ : Int32) (y : Nat) :
    (if y = (a.strata ground).height then
        some ((a.strata ground).top.pick worldX (Int32.ofNat (a.strata ground).height) worldZ)
      else none).or
      ((if y ∈ List.range' 1 ((a.strata ground).height - 1) then
          some ((a.strata ground).filling.pick worldX (Int32.ofNat y) worldZ)
        else none).or (a.lowest? y)) = a.layer? ground worldX worldZ y := by
  have hpos := (a.strata ground).height.2.1
  have hmem : y ∈ List.range' 1 ((a.strata ground).height - 1) ↔
      y ≠ 0 ∧ y < (a.strata ground).height := by
    rw [List.mem_range'_1]
    omega
  unfold layer? lowest?
  simp only [hmem]
  by_cases hzero : y = 0
  · have hne : y ≠ (a.strata ground).height := by omega
    rw [if_neg hne, if_neg (fun h => h.1 hzero), if_pos hzero, if_pos hzero]
    rfl
  · rcases Nat.lt_trichotomy y (a.strata ground).height with hlt | heq | hgt
    · rw [if_neg (Nat.ne_of_lt hlt), if_pos ⟨hzero, hlt⟩, if_neg hzero, if_neg hzero, if_pos hlt]
      rfl
    · rw [if_pos heq, if_neg hzero, if_neg hzero, if_neg (Nat.not_lt.mpr heq.ge), if_pos heq, ← heq]
      rfl
    · rw [if_neg (Nat.ne_of_gt hgt), if_neg (fun h => Nat.lt_asymm hgt h.2), if_neg hzero,
        if_neg hzero, if_neg (Nat.lt_asymm hgt), if_neg (Nat.ne_of_gt hgt)]
      rfl

/-- The filling and the top over what was put at the lowest height. -/
theorem layers_ends (ground : Ground) (worldX worldZ : Int32) (col : Column) {c c' : Chunk}
    (hlowest : (Coat.on col a.lowest? none).Covers c c') :
    Edit.Ends (do
      (List.range' 1 ((a.strata ground).height - 1)).forM fun y =>
        ChunkWriter.setBlock col.x y col.z
          ((a.strata ground).filling.pick worldX (Int32.ofNat y) worldZ)
      ChunkWriter.setBlock col.x (a.strata ground).height col.z
        ((a.strata ground).top.pick worldX (Int32.ofNat (a.strata ground).height) worldZ)) c'
      fun _ c'' => (Coat.on col (a.layer? ground worldX worldZ) none).Covers c c'' := by
  have hheight := (a.strata ground).height.2.2
  have hbelow : ∀ y ∈ List.range' 1 ((a.strata ground).height - 1), y < worldHeight := by
    intro y hy
    rw [List.mem_range'_1] at hy
    omega
  refine (setBlocks_ends col (fun y => (a.strata ground).filling.pick worldX (Int32.ofNat y) worldZ)
    hbelow c').bind fun _ c'' hfilling => ?_
  refine (setBlock_ends col hheight _ c'').mono fun _ c''' htop => ?_
  exact (hlowest.trans_on (hfilling.trans_on htop)).congr fun y => by
    rw [Option.or_assoc, layer?_eq]

theorem buildColumn_ends (ground : Ground) (worldX worldZ : Int32) (col : Column) (c : Chunk) :
    Edit.Ends (a.buildColumn ground worldX worldZ col.x col.z) c fun _ c' =>
      (Coat.on col (a.layer? ground worldX worldZ) none).Covers c c' := by
  unfold buildColumn
  dsimp only
  split
  case isTrue hbedrock =>
      refine (setBlock_ends col (by decide) Block.bedrock c).bind fun _ c' hbegun => ?_
      exact layers_ends ground worldX worldZ col
        (hbegun.congr fun y => by rw [lowest?, if_pos hbedrock])
  case isFalse hbedrock =>
      refine layers_ends ground worldX worldZ col ?_
      have hnone : a.lowest? = fun _ => none := by
        funext y
        rw [lowest?, if_neg hbedrock, ite_self]
      rw [hnone, Coat.on_none]
      exact Coat.bare_covers c

/-! ### Columns -/

theorem builtGround?_of_ground {col : Column} {claimed : Bool} {ground : Ground}
    (hclaimed : a.isClaimed (col.worldX coord) (col.worldZ coord) = .ok claimed)
    (hground : a.mergedGround m (col.worldX coord) (col.worldZ coord) = .ok ground) :
    a.builtGround? coord m col = if claimed && a.owns ground then some ground else none := by
  unfold builtGround?
  rw [hclaimed, hground]
  cases claimed <;> rfl

theorem ownsColumn_eq_isSome (a : Area) (coord : ChunkCoord) (m : Merges) (col : Column) :
    a.ownsColumn coord m col = (a.builtGround? coord m col).isSome := by
  unfold ownsColumn builtGround?
  cases a.isClaimed (col.worldX coord) (col.worldZ coord) with
  | error e => rfl
  | ok claimed =>
      cases a.mergedGround m (col.worldX coord) (col.worldZ coord) with
      | error e => cases claimed <;> rfl
      | ok ground =>
          cases claimed with
          | false => rfl
          | true =>
              cases howns : a.owns ground <;> simp [howns]

/-- On a column that the area builds lies everything that is written there. -/
theorem coat_within_of_built {fill : Fill} {col : Column} {ground : Ground}
    (hbuilt : a.builtGround? coord m col = some ground) :
    (a.coat coord m fill).within [col] = Coat.on col
      (fun y => (a.layer? ground (col.worldX coord) (col.worldZ coord) y).or
        (if fill = .overwrite then some .air else none))
      (if a.terrain = .roads then none else some a.biome) := by
  unfold Coat.on
  refine Coat.within_congr fun col' hcol' => ?_
  rw [List.mem_singleton] at hcol'
  subst hcol'
  simp only [coat, hbuilt, Option.bind_some, and_self]

/-- A column that the area does not build stays bare. -/
theorem coat_within_of_not_built {fill : Fill} {col : Column}
    (hbuilt : a.builtGround? coord m col = none) :
    (a.coat coord m fill).within [col] = Coat.bare := by
  rw [← Coat.on_none col]
  unfold Coat.on
  refine Coat.within_congr fun col' hcol' => ?_
  rw [List.mem_singleton] at hcol'
  subst hcol'
  simp only [coat, hbuilt, Option.bind_none, and_self]

theorem writeColumn_ends (fill : Fill) (col : Column) {ground : Ground}
    (hbuilt : a.builtGround? coord m col = some ground) (c : Chunk) :
    Edit.Ends (a.writeColumn coord fill col ground) c fun _ c' =>
      ((a.coat coord m fill).within [col]).Covers c c' := by
  -- The layers and the biome over a column that was cleared or left as it was.
  have hrest {cleared : Option Block} {c' : Chunk}
      (hclear : (Coat.on col (fun _ => cleared) none).Covers c c') :
      Edit.Ends (do
        a.buildColumn ground (col.worldX coord) (col.worldZ coord) col.x col.z
        if a.terrain ≠ .roads then ChunkWriter.setBiome col.x col.z a.biome) c' fun _ c'' =>
          (Coat.on col
            (fun y => (a.layer? ground (col.worldX coord) (col.worldZ coord) y).or cleared)
            (if a.terrain = .roads then none else some a.biome)).Covers c c'' := by
    refine (buildColumn_ends ground _ _ col c').bind fun _ c'' hlayers => ?_
    have hbuild := hclear.trans_on hlayers
    by_cases hroads : a.terrain = .roads
    · rw [if_neg (not_not.mpr hroads), if_pos hroads]
      exact Edit.ends_pure hbuild
    · rw [if_pos hroads, if_neg hroads]
      exact (setBiome_ends col a.biome c'').mono fun _ c''' hbiome => hbuild.trans_on hbiome
  rw [coat_within_of_built hbuilt]
  unfold writeColumn
  dsimp only
  cases fill with
  | fresh =>
      simp only [reduceCtorEq, if_false]
      refine hrest ?_
      rw [Coat.on_none]
      exact Coat.bare_covers c
  | overwrite => exact (clearColumn_ends col c).bind fun _ c' hclear => hrest hclear

theorem buildIfOwned_ends {g : Grid} (hg : a.grid = .ok g) (m : Merges) (fill : Fill) (col : Column)
    (c : Chunk) :
    Edit.Ends (a.buildIfOwned g m coord fill col) c fun owned c' =>
      owned = a.ownsColumn coord m col ∧ ((a.coat coord m fill).within [col]).Covers c c' := by
  obtain ⟨ground, hground⟩ := g.exists_mergedGround (a.isMerged m) (col.worldX coord)
    (col.worldZ coord)
  have hbuilt := builtGround?_of_ground (isClaimed_eq_of_grid hg _ _)
    ((mergedGround_eq_of_grid hg m _ _).trans hground)
  rw [ownsColumn_eq_isSome]
  unfold buildIfOwned
  by_cases hclaims : g.claims a.bounds (col.worldX coord) (col.worldZ coord) = true
  · rw [hclaims, hground, Edit.liftM_ok_bind]
    by_cases hown : a.owns ground = true
    · rw [hclaims, hown] at hbuilt
      rw [hown, hbuilt]
      exact (writeColumn_ends fill col hbuilt c).bind fun _ c' hc' => Edit.ends_pure ⟨rfl, hc'⟩
    · rw [Bool.not_eq_true] at hown
      rw [hclaims, hown] at hbuilt
      rw [hown, hbuilt, coat_within_of_not_built hbuilt]
      exact Edit.ends_pure ⟨rfl, Coat.bare_covers c⟩
  · rw [Bool.not_eq_true] at hclaims
    rw [hclaims, Bool.false_and] at hbuilt
    rw [hclaims, hbuilt, coat_within_of_not_built hbuilt]
    exact Edit.ends_pure ⟨rfl, Coat.bare_covers c⟩

/-- One turn of the loop over the columns. -/
def buildNext (a : Area) (g : Grid) (m : Merges) (coord : ChunkCoord) (fill : Fill) (count : Nat)
    (col : Column) : Edit Chunk Nat := do
  return if ← a.buildIfOwned g m coord fill col then count + 1 else count

theorem buildInto_of_grid {g : Grid} (hg : a.grid = .ok g) (m : Merges) (fill : Fill) :
    a.buildInto coord m fill = Column.all.foldlM (a.buildNext g m coord fill) 0 := by
  rw [buildInto, hg, Edit.liftM_ok_bind]
  rfl

theorem buildNext_ends {g : Grid} (hg : a.grid = .ok g) (m : Merges) (fill : Fill) (count : Nat)
    (col : Column) (c : Chunk) :
    Edit.Ends (a.buildNext g m coord fill count col) c fun count' c' =>
      count' = (if a.ownsColumn coord m col = true then count + 1 else count) ∧
        ((a.coat coord m fill).within [col]).Covers c c' := by
  refine (buildIfOwned_ends hg m fill col c).bind fun owned c' hcol => ?_
  exact Edit.ends_pure ⟨by rw [hcol.1], hcol.2⟩

/-- Building some columns in turn. -/
theorem buildColumns_ends {g : Grid} (hg : a.grid = .ok g) (m : Merges) (fill : Fill)
    (cols : List Column) (count : Nat) (c : Chunk) :
    Edit.Ends (cols.foldlM (a.buildNext g m coord fill) count) c
      fun total c' => total = count + cols.countP (a.ownsColumn coord m) ∧
        ((a.coat coord m fill).within cols).Covers c c' := by
  induction cols generalizing count c with
  | nil =>
      rw [Coat.within_nil]
      exact Edit.ends_pure ⟨rfl, Coat.bare_covers c⟩
  | cons col rest ih =>
      rw [List.foldlM_cons]
      refine (buildNext_ends hg m fill count col c).bind fun count' c' hcol => ?_
      refine (ih count' c').mono fun total c'' hrest => ⟨?_, ?_⟩
      · rw [hrest.1, hcol.1, List.countP_cons]
        split <;> omega
      · rw [← Coat.within_upon_within]
        exact hcol.2.trans hrest.2

/-- **Building never fails** where the area has a grid. It lays the area's coat over the chunk and
counts the columns that the area claims and owns. -/
theorem buildInto_ends {g : Grid} (hg : a.grid = .ok g) (m : Merges) (fill : Fill) (c : Chunk) :
    Edit.Ends (a.buildInto coord m fill) c fun count c' =>
      count = a.ownedColumns coord m ∧ (a.coat coord m fill).Covers c c' := by
  rw [buildInto_of_grid hg, ownedColumns, ← Column.countP_all]
  refine (buildColumns_ends hg m fill Column.all 0 c).mono fun count c' hall => ?_
  rw [Coat.within_of_forall_mem _ Column.mem_all, Nat.zero_add] at hall
  simpa only [Bool.decide_eq_true] using hall

/-- An area with a grid has a content of every chunk: what building leaves of an empty one. -/
theorem exists_chunk {g : Grid} (hg : a.grid = .ok g) (coord : ChunkCoord) (m : Merges) :
    ∃ c, a.chunk coord m = .ok c ∧
      a.buildInto coord m .fresh (Chunk.empty coord) = .ok (a.ownedColumns coord m) c := by
  obtain ⟨count, c, hbuild, rfl, -⟩ := buildInto_ends hg m .fresh (Chunk.empty coord)
  refine ⟨c, ?_, hbuild⟩
  unfold chunk Edit.outcome
  rw [hbuild]

end Area

end Cadastre
