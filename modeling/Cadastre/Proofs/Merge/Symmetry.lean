import Cadastre.Proofs.Grid.Mirror
import Cadastre.Proofs.Merge.Enclosure
import Cadastre.Proofs.Merge.Growth
import Cadastre.Proofs.Merge.Pairs
/-!
# Cadastre.Proofs.Merge.Symmetry

**The ground does not know east from west.** With the two axes exchanged everywhere, in offsets,
bounds, plots and flags, every column is what it was, with plots and directions exchanged alike. With
one axis turned around, every column keeps its kind, if flags agree and gaps are more than a single
column (`Area.mergedGround_symmetric`).

A `Reflection` renames plots and directions such that neighbours stay neighbours, and everything that
is said in terms of neighbours is kept by all of them alike: who counts as merged
(`Area.isMerged_reflect`) and whether flags agree (`Merges.Mutual.reflect`). The exchange of the axes
also keeps owners, so it is compared with the decisions themselves. Turning an axis around does not:
of two plots the one before the gap owns what was opened between them, from whichever end one looks.
There the seams of a crossing decide the kind (`Ground.ofBandsMerged_kind`), and they are turned
around with it. What holds along one axis then holds along the other with the axes exchanged.
-/

namespace Cadastre

/-! ### Reflections -/

/-- A renaming of plots and directions under which neighbours stay neighbours. Done twice it leaves
everything as it is. -/
structure Reflection where
  plot : PlotId → PlotId
  direction : Direction → Direction
  plot_plot : ∀ id, plot (plot id) = id
  direction_direction : ∀ d, direction (direction d) = d
  plot_neighbor : ∀ id d, plot (id.neighbor d) = (plot id).neighbor (direction d)

namespace Reflection

/-- The two axes change places. -/
def diagonal : Reflection where
  plot id := ⟨id.z, id.x⟩
  direction := Direction.transpose
  plot_plot _ := rfl
  direction_direction d := by cases d <;> rfl
  plot_neighbor id d := by cases d <;> rfl

/-- East and west change places, plot `n` with plot `-1 - n`. -/
def eastWest : Reflection where
  plot id := ⟨Int32.mirror id.x, id.z⟩
  direction
    | .east => .west
    | .west => .east
    | d => d
  plot_plot id := congrArg (PlotId.mk · id.z) (Int32.mirror_mirror id.x)
  direction_direction d := by cases d <;> rfl
  plot_neighbor id d := by
    cases d <;> simp only [PlotId.neighbor, Direction.offset, Int32.mirror_add] <;> rfl

/-- North and south change places, plot `n` with plot `-1 - n`. -/
def northSouth : Reflection where
  plot id := ⟨id.x, Int32.mirror id.z⟩
  direction
    | .north => .south
    | .south => .north
    | d => d
  plot_plot id := congrArg (PlotId.mk id.x) (Int32.mirror_mirror id.z)
  direction_direction d := by cases d <;> rfl
  plot_neighbor id d := by
    cases d <;> simp only [PlotId.neighbor, Direction.offset, Int32.mirror_add] <;> rfl

/-- Opposite directions stay opposite. -/
theorem direction_opposite (r : Reflection) (d : Direction) :
    r.direction d.opposite = (r.direction d).opposite := by
  have hback := r.plot_neighbor ((⟨0, 0⟩ : PlotId).neighbor d) d.opposite
  rw [PlotId.neighbor_opposite, r.plot_neighbor] at hback
  exact PlotId.neighbor_neighbor_eq_iff.mp hback.symm

/-- Flags as they are after a renaming. -/
def flags (r : Reflection) (merged : PlotId → Direction → Bool) : PlotId → Direction → Bool :=
  fun id d => merged (r.plot id) (r.direction d)

theorem mutual_flags (r : Reflection) {merged : PlotId → Direction → Bool} (hm : Mutual merged) :
    Mutual (r.flags merged) := by
  intro id d
  rw [flags, flags, r.plot_neighbor, r.direction_opposite]
  exact hm (r.plot id) (r.direction d)

end Reflection

/-- The merge states of all plots after a renaming. -/
def Merges.reflect (m : Merges) (r : Reflection) : Merges :=
  fun id => .ofSet fun d => (m (r.plot id)).contains (r.direction d)

/-- States that agree do so after a renaming. -/
theorem Merges.Mutual.reflect {m : Merges} (hm : m.Mutual) (r : Reflection) :
    (m.reflect r).Mutual := by
  intro id d
  simp only [Merges.reflect, MergeState.contains_ofSet]
  exact r.mutual_flags hm id d

/-- States in which north and south change places, with the axes exchanged. -/
theorem Merges.reflect_northSouth_diagonal (m : Merges) :
    (m.reflect .northSouth).reflect .diagonal = (m.reflect .diagonal).reflect .eastWest := by
  funext id
  refine congrArg MergeState.ofSet (funext fun d => ?_)
  simp only [Merges.reflect, MergeState.contains_ofSet]
  cases d <;> rfl

/-- An area with renamed bounds holds the renamed plots. -/
theorem Area.contains_of_bounds {a a' : Area} {r : Reflection} {rename : Bounds → Bounds}
    (hbounds : a'.bounds = a.bounds.map rename)
    (hrename : ∀ b id, (rename b).contains id = b.contains (r.plot id)) (id : PlotId) :
    a'.contains id = a.contains (r.plot id) := by
  simp only [contains, hbounds]
  cases a.bounds with
  | none => rfl
  | some b => exact hrename b id

/-- Where the bounds are renamed too, those count as merged who did. -/
theorem Area.isMerged_reflect {a a' : Area} (r : Reflection)
    (hcontains : ∀ id, a'.contains id = a.contains (r.plot id)) (m : Merges) :
    a'.isMerged (m.reflect r) = r.flags (a.isMerged m) := by
  funext id d
  simp only [isMerged, Merges.reflect, MergeState.contains_ofSet, hcontains, r.plot_neighbor,
    Reflection.flags]

/-! ### The axes exchanged -/

/-- A part of a wall with the axes exchanged. -/
def Segment.transpose : Segment → Segment
  | edge d => edge d.transpose
  | corner dx dz => corner dz.transpose dx.transpose

/-- A ground with the axes exchanged. -/
def Ground.transpose : Ground → Ground
  | plot id => plot (Reflection.diagonal.plot id)
  | road => road
  | wall owner segment => wall (Reflection.diagonal.plot owner) segment.transpose

@[simp] theorem Ground.kind_transpose (ground : Ground) : ground.transpose.kind = ground.kind := by
  cases ground <;> rfl

/-- A grid with the axes exchanged. -/
def Grid.transpose (g : Grid) : Grid := { g with offsetX := g.offsetZ, offsetZ := g.offsetX }

/-- A rectangle of plots with the axes exchanged. -/
def Bounds.transpose (b : Bounds) : Bounds :=
  ⟨⟨b.min.z, b.min.x⟩, ⟨b.max.z, b.max.x⟩, b.z_le, b.x_le⟩

theorem Bounds.contains_transpose (b : Bounds) (id : PlotId) :
    b.transpose.contains id = b.contains (Reflection.diagonal.plot id) := by
  simp only [contains, transpose, Reflection.diagonal]
  ac_rfl

/-- An area with the axes exchanged. -/
def Area.transpose (a : Area) : Area :=
  { a with
    bounds := a.bounds.map Bounds.transpose
    roadOffsetX := a.roadOffsetZ
    roadOffsetZ := a.roadOffsetX }

section Transpose

variable {merged : PlotId → Direction → Bool}

namespace Crossing

open Reflection (diagonal)

theorem isFull_transpose (n k : Int32) :
    (of ⟨k, n⟩).isFull (diagonal.flags merged) = (of ⟨n, k⟩).isFull merged := by
  rw [isFull_of, isFull_of]
  show (merged ⟨n, k⟩ .south && merged ⟨n, k⟩ .east && merged ⟨n, k + 1⟩ .east &&
    merged ⟨n + 1, k⟩ .south) = _
  rw [Bool.and_comm (merged ⟨n, k⟩ .south), Bool.and_right_comm]

theorem line_transpose (first second : PlotId) (along facing : Direction) :
    line (diagonal.flags merged) (diagonal.plot first) (diagonal.plot second) along.transpose
      facing.transpose = (line merged first second along facing).transpose := by
  have hflag (id : PlotId) (d : Direction) :
      diagonal.flags merged (diagonal.plot id) d.transpose = merged id d :=
    congrArg (merged id) (diagonal.direction_direction d)
  unfold line
  rw [hflag, hflag, hflag]
  split_ifs <;> rfl

theorem corner_transpose (owner : PlotId) (facingX facingZ : Direction) :
    corner (diagonal.flags merged) (diagonal.plot owner) facingZ.transpose facingX.transpose =
      (corner merged owner facingX facingZ).transpose := by
  have hflag (d : Direction) :
      diagonal.flags merged (diagonal.plot owner) d.transpose = merged owner d :=
    congrArg (merged owner) (diagonal.direction_direction d)
  unfold corner
  rw [hflag, hflag, Bool.and_comm]
  split_ifs <;> rfl

/-- Where two gaps cross, exchanging the axes exchanges owners and directions. -/
theorem ground_transpose (n k : Int32) (p q : GapPart) :
    (of ⟨k, n⟩).ground (diagonal.flags merged) q p =
      ((of ⟨n, k⟩).ground merged p q).transpose := by
  unfold ground
  rw [isFull_transpose]
  simp only [of_a, of_b, of_c, of_d]
  split_ifs
  · rfl
  · cases p <;> cases q
    case road.road => rfl
    case road.low => exact line_transpose ⟨n, k⟩ ⟨n + 1, k⟩ .east .south
    case road.high => exact line_transpose ⟨n, k + 1⟩ ⟨n + 1, k + 1⟩ .east .north
    case low.road => exact line_transpose ⟨n, k⟩ ⟨n, k + 1⟩ .south .east
    case high.road => exact line_transpose ⟨n + 1, k⟩ ⟨n + 1, k + 1⟩ .south .west
    case low.low => exact corner_transpose ⟨n, k⟩ .east .south
    case high.low => exact corner_transpose ⟨n + 1, k⟩ .west .south
    case low.high => exact corner_transpose ⟨n, k + 1⟩ .east .north
    case high.high => exact corner_transpose ⟨n + 1, k + 1⟩ .west .north

end Crossing

namespace Ground

theorem ofBands_transpose {bx bz : Band} (hx : bx.Sound) (hz : bz.Sound) :
    ofBands bz bx = (ofBands bx bz).map transpose := by
  rw [ofBands_eq hx hz, ofBands_eq hz hx]
  rcases bx with x | ⟨n, _ | _ | _⟩ <;> rcases bz with z | ⟨k, _ | _ | _⟩ <;> rfl

/-- What two bands become, with the axes exchanged. -/
theorem ofBandsMerged_transpose {bx bz : Band} (hx : bx.Sound) (hz : bz.Sound) :
    ofBandsMerged (Reflection.diagonal.flags merged) bz bx =
      (ofBandsMerged merged bx bz).map transpose := by
  cases bx with
  | body x =>
      cases bz with
      | body z => rfl
      | gap k q =>
          rw [ofBandsMerged_gap_body, ofBandsMerged_body_gap, ofBands_transpose hx hz,
            apply_ite (Except.map transpose)]
          rfl
  | gap n p =>
      cases bz with
      | body z =>
          rw [ofBandsMerged_gap_body, ofBandsMerged_body_gap, ofBands_transpose hx hz,
            apply_ite (Except.map transpose)]
          rfl
      | gap k q => exact congrArg Except.ok (Crossing.ground_transpose n k p q)

end Ground

end Transpose

namespace Area

variable {a : Area} {g : Grid}

theorem grid_transpose (hg : a.grid = .ok g) : a.transpose.grid = .ok g.transpose := by
  unfold grid at hg
  split at hg
  case isTrue hfits =>
      cases hg
      exact dif_pos hfits
  case isFalse => cases hg

theorem contains_transpose (a : Area) (id : PlotId) :
    a.transpose.contains id = a.contains (Reflection.diagonal.plot id) :=
  contains_of_bounds rfl Bounds.contains_transpose id

/-- The whole ground of an area is exchanged with its axes. -/
theorem mergedGround_transpose (hg : a.grid = .ok g) (m : Merges) (x z : Int32) :
    a.transpose.mergedGround (m.reflect .diagonal) z x =
      (a.mergedGround m x z).map Ground.transpose := by
  rw [mergedGround_eq_of_grid (grid_transpose hg), mergedGround_eq_of_grid hg,
    isMerged_reflect .diagonal a.contains_transpose]
  exact Ground.ofBandsMerged_transpose (g.sound_band g.offsetX x) (g.sound_band g.offsetZ z)

end Area

/-! ### One axis turned around -/

/-- A rectangle of plots in the mirror, where its last plot along `x` is the first. -/
def Bounds.mirrorX : Bounds → Bounds
  | ⟨⟨x, z⟩, ⟨x', z'⟩, hx, hz⟩ =>
      ⟨⟨Int32.mirror x', z⟩, ⟨Int32.mirror x, z'⟩, Int32.mirror_le_mirror hx, hz⟩

/-- A rectangle of plots in the mirror, where its last plot along `z` is the first. -/
def Bounds.mirrorZ : Bounds → Bounds
  | ⟨⟨x, z⟩, ⟨x', z'⟩, hx, hz⟩ =>
      ⟨⟨x, Int32.mirror z'⟩, ⟨x', Int32.mirror z⟩, hx, Int32.mirror_le_mirror hz⟩

/-- An area with its `x` axis turned around. The offset of its roads stays where it is. -/
def Area.mirrorX (a : Area) : Area := { a with bounds := a.bounds.map Bounds.mirrorX }

/-- An area with its `z` axis turned around. The offset of its roads stays where it is. -/
def Area.mirrorZ (a : Area) : Area := { a with bounds := a.bounds.map Bounds.mirrorZ }

theorem Bounds.contains_mk {x z x' z' n k : Int32} (hx : x ≤ x') (hz : z ≤ z') :
    (Bounds.mk ⟨x, z⟩ ⟨x', z'⟩ hx hz).contains ⟨n, k⟩ = true ↔
      (x ≤ n ∧ n ≤ x') ∧ z ≤ k ∧ k ≤ z' := by
  simp only [contains, Bool.and_eq_true, decide_eq_true_eq, and_assoc]

theorem Bounds.contains_mirrorX (b : Bounds) (id : PlotId) :
    b.mirrorX.contains id = b.contains (Reflection.eastWest.plot id) := by
  -- In terms of its four numbers: to compare fields of the rectangle with fields of its mirror image
  -- would unfold the arithmetic on all their bits.
  obtain ⟨⟨x, z⟩, ⟨x', z'⟩, hx, hz⟩ := b
  simp only [mirrorX, Reflection.eastWest]
  rw [Bool.eq_iff_iff, contains_mk hx hz]
  exact (contains_mk _ hz).trans (and_congr_left fun _ => Int32.between_mirror_iff)

namespace Seams

/-- The seams with east and west exchanged. -/
def mirror (s : Seams) : Seams := ⟨s.north, s.west, s.south, s.east⟩

theorem plotAt_mirror (s : Seams) (p q : Spot) : s.mirror.plotAt p.mirror q = s.plotAt p q := by
  -- The same seams have a say in both, but in another order.
  obtain ⟨n, e, south, w⟩ := s
  rcases p with _ | ⟨_ | _ | _⟩ | _ <;> rcases q with _ | ⟨_ | _ | _⟩ | _ <;>
    cases e <;> cases w <;>
    simp [plotAt, mirror, Spot.mirror, GapPart.mirror, isFull]

theorem roadAt_mirror (s : Seams) (p q : Spot) : s.mirror.roadAt p.mirror q = s.roadAt p q := by
  obtain ⟨n, e, south, w⟩ := s
  rcases p with _ | ⟨_ | _ | _⟩ | _ <;> rcases q with _ | ⟨_ | _ | _⟩ | _ <;>
    cases e <;> cases w <;>
    simp [roadAt, mirror, Spot.mirror, GapPart.mirror, isFull]

end Seams

section Mirror

variable {merged : PlotId → Direction → Bool}

/-- Where flags agree, the crossing in the mirror has the same seams, with east and west exchanged.
-/
theorem Crossing.seams_mirror (hm : Mutual merged) (n k : Int32) :
    (of ⟨Int32.mirror (n + 1), k⟩).seams (Reflection.eastWest.flags merged) =
      ((of ⟨n, k⟩).seams merged).mirror := by
  obtain ⟨hbw, -, hdw, -⟩ := flags_of_mutual hm ⟨n, k⟩
  rw [of_b, of_a] at hbw
  rw [of_d, of_c] at hdw
  have hflag (x z : Int32) (d : Direction) : Reflection.eastWest.flags merged ⟨x, z⟩ d =
      merged ⟨Int32.mirror x, z⟩ (Reflection.eastWest.direction d) := rfl
  simp only [seams, of_a, of_b, of_c, hflag, Int32.mirror_succ, Int32.mirror_mirror]
  show Seams.mk (merged ⟨n + 1, k⟩ .west) _ (merged ⟨n + 1, k + 1⟩ .west) _ = _
  rw [hbw, hdw]
  rfl

/-- What is neither plot nor road is wall. -/
theorem Ground.kind_eq_of {ground ground' : Ground} (hplot : ground.isPlot = ground'.isPlot)
    (hroad : ground.isRoad = ground'.isRoad) : ground.kind = ground'.kind := by
  cases ground <;> cases ground' <;> simp_all [isPlot, isRoad, kind]

/-- **In the mirror** a column keeps its kind. -/
theorem Ground.kind_mirror (hm : Mutual merged) {bx bz : Band} (hx : bx.Sound)
    (hx' : bx.mirror.Sound) (hz : bz.Sound) :
    ∃ ground ground', ofBandsMerged merged bx bz = .ok ground ∧
      ofBandsMerged (Reflection.eastWest.flags merged) bx.mirror bz = .ok ground' ∧
      ground'.kind = ground.kind := by
  obtain ⟨n, s, rfl⟩ := bx.exists_spot
  obtain ⟨k, t, rfl⟩ := bz.exists_spot
  rw [Spot.band_mirror] at hx' ⊢
  obtain ⟨ground, hground, hplot, hroad⟩ := ofBandsMerged_kind hm hx hz
  obtain ⟨ground', hground', hplot', hroad'⟩ :=
    ofBandsMerged_kind (Reflection.eastWest.mutual_flags hm) hx' hz
  refine ⟨ground, ground', hground, hground', kind_eq_of ?_ ?_⟩
  · rw [hplot', hplot, Crossing.seams_mirror hm, Seams.plotAt_mirror]
  · rw [hroad', hroad, Crossing.seams_mirror hm, Seams.roadAt_mirror]

end Mirror

namespace Area

variable {a : Area} {g : Grid} {m : Merges}

theorem contains_mirrorX (a : Area) (id : PlotId) :
    a.mirrorX.contains id = a.contains (Reflection.eastWest.plot id) :=
  contains_of_bounds rfl Bounds.contains_mirrorX id

/-- Turning the `x` axis around keeps the kind of every column. -/
theorem kind_mirrorX (hg : a.grid = .ok g) (hr : g.roadWidth.toInt ≠ 1) (hm : m.Mutual)
    {x x' : Int32} (hx : g.Mirrors g.offsetX x x') (z : Int32) :
    ∃ ground ground', a.mergedGround m x z = .ok ground ∧
      a.mirrorX.mergedGround (m.reflect .eastWest) x' z = .ok ground' ∧
      ground'.kind = ground.kind := by
  have hband : g.bandX x' = (g.bandX x).mirror := hx.band_eq hr
  have hg' : a.mirrorX.grid = .ok g := hg
  rw [mergedGround_eq_of_grid hg, mergedGround_eq_of_grid hg',
    isMerged_reflect .eastWest a.contains_mirrorX]
  unfold Grid.mergedGround
  rw [hband]
  exact Ground.kind_mirror (a.isMerged_mutual hm) (g.sound_band g.offsetX x)
    (hband ▸ g.sound_band g.offsetX x') (g.sound_band g.offsetZ z)

/-- A column is of the kind that it is with the axes exchanged. -/
theorem kind_of_transpose (hg : a.grid = .ok g) {x z : Int32} {ground : Ground}
    (h : a.transpose.mergedGround (m.reflect .diagonal) z x = .ok ground) :
    ∃ ground', a.mergedGround m x z = .ok ground' ∧ ground'.kind = ground.kind := by
  rw [mergedGround_transpose hg] at h
  obtain ⟨ground', hground', rfl⟩ := exists_of_map_eq_ok h
  exact ⟨ground', hground', ground'.kind_transpose.symm⟩

/-- To turn around the second axis is to turn around the first when the two are exchanged. -/
theorem transpose_mirrorZ (a : Area) : a.mirrorZ.transpose = a.transpose.mirrorX := by
  have hbounds : Bounds.transpose ∘ Bounds.mirrorZ = Bounds.mirrorX ∘ Bounds.transpose :=
    funext fun ⟨⟨_, _⟩, ⟨_, _⟩, _, _⟩ => rfl
  unfold transpose mirrorZ mirrorX
  simp only [Option.map_map, hbounds]

/-- Turning the `z` axis around keeps the kind of every column. -/
theorem kind_mirrorZ (hg : a.grid = .ok g) (hr : g.roadWidth.toInt ≠ 1) (hm : m.Mutual)
    {z z' : Int32} (hz : g.Mirrors g.offsetZ z z') (x : Int32) :
    ∃ ground ground', a.mergedGround m x z = .ok ground ∧
      a.mirrorZ.mergedGround (m.reflect .northSouth) x z' = .ok ground' ∧
      ground'.kind = ground.kind := by
  -- With the axes exchanged it is the `x` axis that is turned around.
  obtain ⟨ground, ground', hground, hground', hkind⟩ :=
    kind_mirrorX (grid_transpose hg) hr (hm.reflect .diagonal) hz x
  rw [← transpose_mirrorZ, ← Merges.reflect_northSouth_diagonal] at hground'
  obtain ⟨found, hfound, hkind_found⟩ := kind_of_transpose hg hground
  obtain ⟨found', hfound', hkind_found'⟩ :=
    kind_of_transpose (a := a.mirrorZ) (g := g) hg hground'
  exact ⟨found, found', hfound, hfound', by rw [hkind_found, hkind_found', hkind]⟩

/-- **The ground does not know east from west.** In an area whose period fits, every column has a
ground, and with the axes exchanged everywhere it has the same, exchanged. If flags agree and gaps
are more than a single column, turning around one of the axes keeps the kind of the ground: of the
columns `x` and `x'` that change places then, the one is plot, road or wall just if the other is. -/
theorem mergedGround_symmetric (a : Area) (m : Merges)
    (hfits : Fits (a.plotSize.toInt + a.roadWidth.toInt)) :
    ∃ g, a.grid = .ok g ∧ ∀ x z, ∃ ground, a.mergedGround m x z = .ok ground ∧
      a.transpose.mergedGround (m.reflect .diagonal) z x = .ok ground.transpose ∧
      (a.roadWidth.toInt ≠ 1 → m.Mutual →
        (∀ x', g.Mirrors g.offsetX x x' →
          ∃ ground', a.mirrorX.mergedGround (m.reflect .eastWest) x' z = .ok ground' ∧
            ground'.kind = ground.kind) ∧
        ∀ z', g.Mirrors g.offsetZ z z' →
          ∃ ground', a.mirrorZ.mergedGround (m.reflect .northSouth) x z' = .ok ground' ∧
            ground'.kind = ground.kind) := by
  obtain ⟨g, hg, -, hroads, -, -⟩ := exists_grid hfits
  refine ⟨g, hg, fun x z => ?_⟩
  obtain ⟨ground, hground⟩ := g.exists_mergedGround (a.isMerged m) x z
  rw [← mergedGround_eq_of_grid hg] at hground
  refine ⟨ground, hground, ?_, fun hwidth hm => ⟨fun x' hx => ?_, fun z' hz => ?_⟩⟩
  · rw [mergedGround_transpose hg, hground]
    rfl
  · obtain ⟨found, ground', hfound, hground', hkind⟩ :=
      kind_mirrorX hg (hroads ▸ hwidth) hm hx z
    cases hground.symm.trans hfound
    exact ⟨ground', hground', hkind⟩
  · obtain ⟨found, ground', hfound, hground', hkind⟩ :=
      kind_mirrorZ hg (hroads ▸ hwidth) hm hz x
    cases hground.symm.trans hfound
    exact ⟨ground', hground', hkind⟩

/-- The standard area with its roads aside along `x`, and bounds on its plots. -/
def aside : Area :=
  { standard with
    bounds := some ⟨⟨0, 0⟩, ⟨1, 2⟩, by decide, by decide⟩
    roadOffsetX := 5 }

/-- The wall line over the road between two merged plots is wall from whichever end it is seen. -/
theorem mergedGround_symmetric_aside :
    Fits (aside.plotSize.toInt + aside.roadWidth.toInt) ∧ aside.roadWidth.toInt ≠ 1 ∧
      horseshoe.Mutual ∧
      ∃ g, aside.grid = .ok g ∧ g.Mirrors g.offsetX 44 (-34) ∧ g.Mirrors g.offsetZ 36 (-36) ∧
        aside.mergedGround horseshoe 44 36 = .ok (.wall ⟨0, 0⟩ (.edge .south)) ∧
        aside.transpose.mergedGround (horseshoe.reflect .diagonal) 36 44 =
          .ok (.wall ⟨0, 0⟩ (.edge .east)) ∧
        (∃ ground, aside.mirrorX.mergedGround (horseshoe.reflect .eastWest) (-34) 36 = .ok ground ∧
          ground.kind = .wall) ∧
        ∃ ground, aside.mirrorZ.mergedGround (horseshoe.reflect .northSouth) 44 (-36) = .ok ground ∧
          ground.kind = .wall := by
  obtain ⟨g, hg, hall⟩ := mergedGround_symmetric aside horseshoe (by decide)
  cases Except.ok.inj (show Except.ok _ = Except.ok g from hg)
  obtain ⟨ground, hground, htranspose, hmirror⟩ := hall 44 36
  obtain ⟨hx, hz⟩ := hmirror (by decide) horseshoe_mutual
  have hwall : aside.mergedGround horseshoe 44 36 = .ok (.wall ⟨0, 0⟩ (.edge .south)) := rfl
  cases hwall.symm.trans hground
  exact ⟨by decide, by decide, horseshoe_mutual, _, hg, by decide, by decide, hwall, htranspose,
    hx (-34) (by decide), hz (-36) (by decide)⟩

end Area

end Cadastre
