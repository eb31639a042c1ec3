import Cadastre.Merge
import Cadastre.Proofs.Grid.Step
/-!
# Cadastre.Proofs.Merge.Crossing

**Crossings by their seams.** Four plots meet at a crossing, and four pairs of them are neighbours.
Where the flags of neighbours agree (`Mutual`), whether a column around the crossing is plot, wall
or road depends on nothing but which of these four *seams* are merged (`Seams`), and on the column's
place.

`Ground.ofBandsMerged_kind` says so for every place around a crossing, from the plots before the
gaps to the plots behind them.
-/

namespace Cadastre

/-! ### Flags that agree -/

/-- Each plot is merged towards a neighbour exactly if the neighbour is merged back. -/
def Mutual (merged : PlotId → Direction → Bool) : Prop :=
  ∀ id d, merged id d = merged (id.neighbor d) d.opposite

/-- The states of neighbours agree. -/
def Merges.Mutual (m : Merges) : Prop :=
  ∀ id d, (m id).contains d = (m (id.neighbor d)).contains d.opposite

/-- The states in which plots are merged over the given sides and no others. -/
def Merges.ofSides (sides : List (PlotId × Direction)) : Merges := fun id =>
  .ofFlags (decide ((id, .north) ∈ sides)) (decide ((id, .east) ∈ sides))
    (decide ((id, .south) ∈ sides)) (decide ((id, .west) ∈ sides))

theorem Merges.contains_ofSides (sides : List (PlotId × Direction)) (id : PlotId) (d : Direction) :
    (ofSides sides id).contains d = decide ((id, d) ∈ sides) := by
  rw [ofSides, MergeState.contains_ofFlags]
  cases d <;> rfl

/-- States agree if each side is listed from both plots. -/
theorem Merges.mutual_ofSides {sides : List (PlotId × Direction)}
    (h : ∀ side ∈ sides, (side.1.neighbor side.2, side.2.opposite) ∈ sides) :
    (ofSides sides).Mutual := by
  intro id d
  rw [contains_ofSides, contains_ofSides, decide_eq_decide]
  refine ⟨h (id, d), fun hback => ?_⟩
  have := h _ hback
  rwa [PlotId.neighbor_opposite, Direction.opposite_opposite] at this

/-- The bounds of an area do not come between flags that agree. -/
theorem Area.isMerged_mutual (a : Area) {m : Merges} (hm : m.Mutual) : Mutual (a.isMerged m) := by
  intro id d
  unfold isMerged
  rw [hm id d, PlotId.neighbor_opposite, Bool.and_assoc, Bool.and_assoc,
    Bool.and_comm (a.contains id)]

/-! ### Neighbours around a crossing -/

namespace PlotId

theorem neighbor_east (x z : Int32) : (mk x z).neighbor .east = ⟨x + 1, z⟩ := by
  simp [neighbor, Direction.offset]

theorem neighbor_south (x z : Int32) : (mk x z).neighbor .south = ⟨x, z + 1⟩ := by
  simp [neighbor, Direction.offset]

theorem neighbor_west_succ (x z : Int32) : (mk (x + 1) z).neighbor .west = ⟨x, z⟩ := by
  simp [neighbor, Direction.offset, Int32.add_assoc]

theorem neighbor_north_succ (x z : Int32) : (mk x (z + 1)).neighbor .north = ⟨x, z⟩ := by
  simp [neighbor, Direction.offset, Int32.add_assoc]

end PlotId

theorem Crossing.of_a (id : PlotId) : (of id).a = id := rfl

theorem Crossing.isFull_of (merged : PlotId → Direction → Bool) (n k : Int32) :
    (Crossing.of ⟨n, k⟩).isFull merged = (merged ⟨n, k⟩ .east && merged ⟨n, k⟩ .south &&
      merged ⟨n + 1, k⟩ .south && merged ⟨n, k + 1⟩ .east) := by
  simp only [isFull, of_a, of_b, of_c]

/-! ### Seams -/

/-- Which of the four pairs of neighbours around a crossing are merged. A seam is named by the side
of the crossing on which it lies. -/
structure Seams where
  north : Bool
  east : Bool
  south : Bool
  west : Bool
  deriving DecidableEq

/-- The seams of a crossing. -/
def Crossing.seams (k : Crossing) (merged : PlotId → Direction → Bool) : Seams :=
  ⟨merged k.a .east, merged k.b .south, merged k.c .east, merged k.a .south⟩

namespace Seams

/-- Whether the seam on a side is merged. -/
def on (s : Seams) : Direction → Bool
  | .north => s.north
  | .east => s.east
  | .south => s.south
  | .west => s.west

def isFull (s : Seams) : Bool := s.north && s.east && s.south && s.west

/-- Whether a place around a crossing is plot. -/
def plotAt (s : Seams) : Spot → Spot → Bool
  | .part .road, .part .road => s.isFull
  | .part .road, .part .low => s.north && s.west && s.east
  | .part .road, .part .high => s.south && s.west && s.east
  | .part .low, .part .road => s.west && s.north && s.south
  | .part .high, .part .road => s.east && s.north && s.south
  | .part .low, .part .low => s.north && s.west
  | .part .high, .part .low => s.north && s.east
  | .part .low, .part .high => s.south && s.west
  | .part .high, .part .high => s.south && s.east
  | .part _, .before => s.north
  | .part _, .after => s.south
  | .before, .part _ => s.west
  | .after, .part _ => s.east
  | _, _ => true

/-- Whether a place around a crossing is road. -/
def roadAt (s : Seams) : Spot → Spot → Bool
  | .part .road, .part .road => !s.isFull
  | .part .road, .part .low | .part .road, .before => !s.north
  | .part .road, .part .high | .part .road, .after => !s.south
  | .part .low, .part .road | .before, .part .road => !s.west
  | .part .high, .part .road | .after, .part .road => !s.east
  | _, _ => false

/-- The seams with the two axes exchanged. -/
def transpose (s : Seams) : Seams := ⟨s.west, s.south, s.east, s.north⟩

theorem plotAt_transpose (s : Seams) (p q : Spot) : s.transpose.plotAt q p = s.plotAt p q := by
  rcases s with ⟨n, e, so, w⟩
  rcases p with _ | ⟨_ | _ | _⟩ | _ <;> rcases q with _ | ⟨_ | _ | _⟩ | _ <;>
    simp only [plotAt, transpose, isFull] <;> cases n <;> cases w <;> simp [Bool.and_comm]

theorem roadAt_transpose (s : Seams) (p q : Spot) : s.transpose.roadAt q p = s.roadAt p q := by
  rcases s with ⟨n, e, so, w⟩
  rcases p with _ | ⟨_ | _ | _⟩ | _ <;> rcases q with _ | ⟨_ | _ | _⟩ | _ <;>
    simp only [roadAt, transpose, isFull]
  -- Only the middle, where all four seams count, takes more than a look at the two tables.
  cases n <;> cases w <;> simp [Bool.or_comm]

end Seams

/-! ### The ground around a crossing -/

variable {merged : PlotId → Direction → Bool}

/-- The flags that face back over the seams of a crossing. -/
theorem Crossing.flags_of_mutual (hm : Mutual merged) (a : PlotId) :
    merged (of a).b .west = merged (of a).a .east ∧
      merged (of a).c .north = merged (of a).a .south ∧
      merged (of a).d .west = merged (of a).c .east ∧
      merged (of a).d .north = merged (of a).b .south := by
  -- The fourth plot can be reached either way around the crossing.
  have hd : (of a).d = (of a).c.neighbor .east := by
    simp [of, PlotId.neighbor, Direction.offset]
  refine ⟨(hm a .east).symm, (hm a .south).symm, ?_, (hm (of a).b .south).symm⟩
  rw [hd]
  exact (hm (of a).c .east).symm

/-- Where two gaps cross, the seams decide what a column is. -/
theorem Crossing.kind_ground (hm : Mutual merged) (a : PlotId) (p q : GapPart) :
    ((of a).ground merged p q).isPlot = ((of a).seams merged).plotAt (.part p) (.part q) ∧
      ((of a).ground merged p q).isRoad = ((of a).seams merged).roadAt (.part p) (.part q) := by
  obtain ⟨hbw, hcn, hdw, hdn⟩ := flags_of_mutual hm a
  unfold ground isFull
  -- With the flags that face back gone, four flags are left, and both sides are tables over them.
  cases p <;> cases q <;>
    simp only [line, corner, hbw, hcn, hdw, hdn, seams, Seams.plotAt, Seams.roadAt,
      Seams.isFull] <;>
    cases merged (of a).a .east <;> cases merged (of a).a .south <;>
    cases merged (of a).b .south <;> cases merged (of a).c .east <;>
    exact ⟨rfl, rfl⟩

namespace Ground

/-- Across a gap of the `x` axis the flag of the plot before it decides. -/
theorem kind_gap_body (merged : PlotId → Direction → Bool) {n z : Int32} {p : GapPart}
    (hs : (Band.gap n p).Sound) :
    ∃ ground, ofBandsMerged merged (.gap n p) (.body z) = .ok ground ∧
      ground.isPlot = merged ⟨n, z⟩ .east ∧
      ground.isRoad = (!merged ⟨n, z⟩ .east && p == .road) := by
  have hz : (Band.body z).Sound := trivial
  rw [ofBandsMerged_gap_body]
  by_cases h : merged ⟨n, z⟩ .east = true
  · exact ⟨.plot ⟨n, z⟩, if_pos h, h.symm, by rw [h]; rfl⟩
  · rw [if_neg h, ofBands_eq hs hz]
    rw [Bool.not_eq_true] at h
    refine ⟨_, rfl, ?_⟩
    rw [h]
    cases p <;> exact ⟨rfl, rfl⟩

/-- Across a gap of the `z` axis the flag of the plot before it decides. -/
theorem kind_body_gap (merged : PlotId → Direction → Bool) {x n : Int32} {p : GapPart}
    (hs : (Band.gap n p).Sound) :
    ∃ ground, ofBandsMerged merged (.body x) (.gap n p) = .ok ground ∧
      ground.isPlot = merged ⟨x, n⟩ .south ∧
      ground.isRoad = (!merged ⟨x, n⟩ .south && p == .road) := by
  have hx : (Band.body x).Sound := trivial
  rw [ofBandsMerged_body_gap]
  by_cases h : merged ⟨x, n⟩ .south = true
  · exact ⟨.plot ⟨x, n⟩, if_pos h, h.symm, by rw [h]; rfl⟩
  · rw [if_neg h, ofBands_eq hx hs]
    rw [Bool.not_eq_true] at h
    refine ⟨_, rfl, ?_⟩
    rw [h]
    cases p <;> exact ⟨rfl, rfl⟩

/-- With sound bands every column has a ground. -/
theorem exists_ofBandsMerged {bx bz : Band} (hx : bx.Sound) (hz : bz.Sound) :
    ∃ ground, ofBandsMerged merged bx bz = .ok ground := by
  cases bx with
  | body x =>
      cases bz with
      | body z => exact ⟨_, rfl⟩
      | gap n q =>
          obtain ⟨ground, hok, -⟩ := kind_body_gap merged (x := x) hz
          exact ⟨ground, hok⟩
  | gap n p =>
      cases bz with
      | body z =>
          obtain ⟨ground, hok, -⟩ := kind_gap_body merged (z := z) hx
          exact ⟨ground, hok⟩
      | gap k q => exact ⟨_, rfl⟩

/-- **The ground around a crossing.** Every column around a crossing has a ground, and with flags
that agree the seams decide whether it is plot or road. -/
theorem ofBandsMerged_kind (hm : Mutual merged) {n k : Int32} {s t : Spot}
    (hs : (s.band n).Sound) (ht : (t.band k).Sound) :
    ∃ ground, ofBandsMerged merged (s.band n) (t.band k) = .ok ground ∧
      ground.isPlot = ((Crossing.of ⟨n, k⟩).seams merged).plotAt s t ∧
      ground.isRoad = ((Crossing.of ⟨n, k⟩).seams merged).roadAt s t := by
  cases s with
  | part p =>
      cases t with
      | part q => exact ⟨_, rfl, Crossing.kind_ground hm ⟨n, k⟩ p q⟩
      | before =>
          obtain ⟨ground, hok, hplot, hroad⟩ := kind_gap_body merged (z := k) hs
          refine ⟨ground, hok, ?_⟩
          rw [hplot, hroad]
          cases p <;> simp [Seams.plotAt, Seams.roadAt, Crossing.seams, Crossing.of]
      | after =>
          obtain ⟨ground, hok, hplot, hroad⟩ := kind_gap_body merged (z := k + 1) hs
          refine ⟨ground, hok, ?_⟩
          rw [hplot, hroad]
          cases p <;> simp [Seams.plotAt, Seams.roadAt, Crossing.seams]
  | before =>
      cases t with
      | part q =>
          obtain ⟨ground, hok, hplot, hroad⟩ := kind_body_gap merged (x := n) ht
          refine ⟨ground, hok, ?_⟩
          rw [hplot, hroad]
          cases q <;> simp [Seams.plotAt, Seams.roadAt, Crossing.seams, Crossing.of]
      | before => exact ⟨_, rfl, rfl, rfl⟩
      | after => exact ⟨_, rfl, rfl, rfl⟩
  | after =>
      cases t with
      | part q =>
          obtain ⟨ground, hok, hplot, hroad⟩ := kind_body_gap merged (x := n + 1) ht
          refine ⟨ground, hok, ?_⟩
          rw [hplot, hroad]
          cases q <;> simp [Seams.plotAt, Seams.roadAt, Crossing.seams]
      | before => exact ⟨_, rfl, rfl, rfl⟩
      | after => exact ⟨_, rfl, rfl, rfl⟩

end Ground

/-- Every column of a grid has a ground, whoever is merged. -/
theorem Grid.exists_mergedGround (g : Grid) (merged : PlotId → Direction → Bool) (x z : Int32) :
    ∃ ground, g.mergedGround merged x z = .ok ground :=
  Ground.exists_ofBandsMerged (g.sound_band g.offsetX x) (g.sound_band g.offsetZ z)

end Cadastre
