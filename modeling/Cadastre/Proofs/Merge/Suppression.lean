import Cadastre.Proofs.Merge.Crossing
/-!
# Cadastre.Proofs.Merge.Suppression

**Which walls fall.** A wall should fall where its own plot is merged towards the other side, and a
corner where its plot is merged over both walls that meet there (`Area.suppresses`). Where the flags
of neighbours agree, this is what happens.

With flags on one side only it is not: between two plots the flag of the plot before the gap decides
about the walls on both sides of it, and where all four plots around a crossing are merged, each
seam counted from the plot before it, all its corners fall. `Falls` says exactly what happens
(`Area.wall_falls`).
-/

namespace Cadastre

/-! ### Across a gap -/

/-- The direction that leads over the same gap towards larger coordinates. -/
def Direction.forward : Direction → Direction
  | north => south
  | east => east
  | south => south
  | west => east

/-- Of a plot and its neighbour in a direction, the one before the gap between them. -/
def PlotId.before (id : PlotId) : Direction → PlotId
  | .north => id.neighbor .north
  | .east => id
  | .south => id
  | .west => id.neighbor .west

/-- Where flags agree, the flag of either plot tells whether two neighbours are merged. -/
theorem Mutual.before {merged : PlotId → Direction → Bool} (hm : Mutual merged) (id : PlotId)
    (d : Direction) : merged (id.before d) d.forward = merged id d := by
  cases d with
  | north => exact (hm id .north).symm
  | east => rfl
  | south => rfl
  | west => exact (hm id .west).symm

/-! ### Walls that should fall and walls that fall -/

/-- Whether a part of a plot's wall should fall: the plot is merged towards the sides that the part
faces. -/
def Area.suppresses (a : Area) (m : Merges) (owner : PlotId) : Segment → Bool
  | .edge d => a.isWallSuppressed m owner (owner.neighbor d) d
  | .corner dx dz =>
    a.isWallSuppressed m owner (owner.neighbor dx) dx &&
      a.isWallSuppressed m owner (owner.neighbor dz) dz

/-- Whether a part of a plot's wall falls. On an edge the flag of the plot before the gap decides. A
corner falls with its crossing, or by the flags of the plot. -/
def Falls (merged : PlotId → Direction → Bool) (owner : PlotId) : Segment → Bool
  | .edge d => merged (owner.before d) d.forward
  | .corner dx dz =>
    (Crossing.of ((owner.before dx).before dz)).isFull merged ||
      merged owner dx && merged owner dz

theorem Area.isWallSuppressed_neighbor (a : Area) (m : Merges) (id : PlotId) (d : Direction) :
    a.isWallSuppressed m id (id.neighbor d) d = a.isMerged m id d := by
  simp [isWallSuppressed]

variable {merged : PlotId → Direction → Bool} {owner : PlotId} {segment : Segment} {bx bz : Band}

/-- The wall parts of a grid: edges, and corners that face along `x` and along `z`. -/
def Segment.Proper : Segment → Prop
  | .edge _ => True
  | .corner dx dz => (dx = .east ∨ dx = .west) ∧ (dz = .south ∨ dz = .north)

/-- A corner falls with the crossing that it lies at, or by the flags of its plot. -/
theorem Crossing.corner_falls {n k : Int32} {dx dz : Direction} {ground : Ground}
    (hground : ground =
      if (of ⟨n, k⟩).isFull merged then .plot ⟨n, k⟩ else corner merged owner dx dz)
    (hbefore : (owner.before dx).before dz = ⟨n, k⟩) :
    ∃ id, ground = if Falls merged owner (.corner dx dz) then .plot id
      else .wall owner (.corner dx dz) := by
  simp only [Falls, hbefore, hground]
  cases hfull : (of ⟨n, k⟩).isFull merged with
  | true => exact ⟨⟨n, k⟩, rfl⟩
  | false => exact ⟨owner, rfl⟩

/-- **What becomes of a wall.** It falls and is plot, or it stays the wall it was. -/
theorem Ground.ofBandsMerged_of_wall (merged : PlotId → Direction → Bool) (hx : bx.Sound)
    (hz : bz.Sound) (hwall : ofBands bx bz = .ok (.wall owner segment)) :
    segment.Proper ∧ ∃ id, ofBandsMerged merged bx bz =
      .ok (if Falls merged owner segment then .plot id else .wall owner segment) := by
  cases bx with
  | body x =>
      cases bz with
      | body z => cases hwall
      | gap k q =>
          rw [ofBandsMerged_body_gap, hwall]
          rw [ofBands_eq hx hz] at hwall
          have hfalls : segment.Proper ∧ Falls merged owner segment = merged ⟨x, k⟩ .south := by
            cases q <;> cases hwall
            case low => exact ⟨trivial, rfl⟩
            case high =>
                exact ⟨trivial, congrArg (merged · .south) (PlotId.neighbor_north_succ x k)⟩
          refine ⟨hfalls.1, ⟨x, k⟩, ?_⟩
          rw [hfalls.2]
          split <;> rfl
  | gap n p =>
      cases bz with
      | body z =>
          rw [ofBandsMerged_gap_body, hwall]
          rw [ofBands_eq hx hz] at hwall
          have hfalls : segment.Proper ∧ Falls merged owner segment = merged ⟨n, z⟩ .east := by
            cases p <;> cases hwall
            case low => exact ⟨trivial, rfl⟩
            case high =>
                exact ⟨trivial, congrArg (merged · .east) (PlotId.neighbor_west_succ n z)⟩
          refine ⟨hfalls.1, ⟨n, z⟩, ?_⟩
          rw [hfalls.2]
          split <;> rfl
      | gap k q =>
          rw [ofBands_eq hx hz] at hwall
          simp only [ofBandsMerged, Except.ok.injEq]
          -- Two walls meet in four ways, one for each plot around the crossing.
          cases p <;> cases q <;> cases hwall
          case low.low.refl =>
              exact ⟨⟨.inl rfl, .inl rfl⟩, Crossing.corner_falls rfl rfl⟩
          case high.low.refl =>
              refine ⟨⟨.inr rfl, .inl rfl⟩,
                Crossing.corner_falls ?_ (PlotId.neighbor_west_succ n k)⟩
              rw [Crossing.ground, Crossing.of_b]
              rfl
          case low.high.refl =>
              refine ⟨⟨.inl rfl, .inr rfl⟩,
                Crossing.corner_falls ?_ (PlotId.neighbor_north_succ n k)⟩
              rw [Crossing.ground, Crossing.of_c]
              rfl
          case high.high.refl =>
              have hbefore : ((PlotId.mk (n + 1) (k + 1)).before .west).before .north = ⟨n, k⟩ :=
                (congrArg (·.neighbor .north) (PlotId.neighbor_west_succ n (k + 1))).trans
                  (PlotId.neighbor_north_succ n k)
              refine ⟨⟨.inr rfl, .inr rfl⟩, Crossing.corner_falls ?_ hbefore⟩
              rw [Crossing.ground, Crossing.of_d]
              rfl

/-! ### Flags that agree -/

/-- Where flags agree, a plot beside a full crossing is merged over both of its walls that meet
there. -/
theorem Crossing.corner_of_isFull (hm : Mutual merged) {dx dz : Direction}
    (hproper : (Segment.corner dx dz).Proper)
    (hfull : (of ((owner.before dx).before dz)).isFull merged = true) :
    merged owner dx = true ∧ merged owner dz = true := by
  obtain ⟨hbw, hcn, hdw, hdn⟩ := flags_of_mutual hm ((owner.before dx).before dz)
  simp only [isFull, Bool.and_eq_true] at hfull
  obtain ⟨⟨⟨hae, has⟩, hbs⟩, hce⟩ := hfull
  rw [hae] at hbw
  rw [has] at hcn
  rw [hce] at hdw
  rw [hbs] at hdn
  obtain ⟨rfl | rfl, rfl | rfl⟩ := hproper
  · exact ⟨hae, has⟩
  · have hc : (of ((owner.before .east).before .north)).c = owner := owner.neighbor_opposite .north
    rw [hc] at hce hcn
    exact ⟨hce, hcn⟩
  · have hb : (of ((owner.before .west).before .south)).b = owner := owner.neighbor_opposite .west
    rw [hb] at hbw hbs
    exact ⟨hbw, hbs⟩
  · have hd : (of ((owner.before .west).before .north)).d = owner := by
      simp [of, PlotId.before, PlotId.neighbor, Direction.offset, Int32.add_assoc]
    rw [hd] at hdw hdn
    exact ⟨hdw, hdn⟩

/-- Where flags agree, those walls fall that should. -/
theorem Area.falls_of_mutual {a : Area} {m : Merges} (hm : m.Mutual) (hproper : segment.Proper) :
    Falls (a.isMerged m) owner segment = a.suppresses m owner segment := by
  have hmutual := a.isMerged_mutual hm
  cases segment with
  | edge d => exact (hmutual.before owner d).trans (a.isWallSuppressed_neighbor m owner d).symm
  | corner dx dz =>
      rw [suppresses, isWallSuppressed_neighbor, isWallSuppressed_neighbor, Falls]
      cases hfull : (Crossing.of ((owner.before dx).before dz)).isFull (a.isMerged m) with
      | false => rfl
      | true =>
          obtain ⟨hx, hz⟩ := Crossing.corner_of_isFull hmutual hproper hfull
          rw [hx, hz]
          rfl

/-! ### Walls of an area -/

/-- Where a grid has walls, its period has two columns at least. -/
theorem Grid.two_le_period_of_wall {g : Grid} {x z : Int32}
    (hwall : g.ground x z = .ok (.wall owner segment)) : 2 ≤ g.period := by
  refine two_le_period fun hnone => ?_
  obtain ⟨n, hx⟩ := exists_band_eq_body hnone g.offsetX x
  obtain ⟨k, hz⟩ := exists_band_eq_body hnone g.offsetZ z
  rw [ground, bandX, bandZ, hx, hz] at hwall
  cases hwall

namespace Area

/-- **Which walls fall.** Every wall column of an unmerged area is plot under merges exactly if the
part of the wall falls there, and stays the wall it was otherwise. An edge falls if the plot before
the gap is merged over it. A corner falls if its plot is merged over both walls that meet there, or
if the crossing that it lies at is full. Where the states of neighbours agree, the walls that fall
are those that should: the edges and corners that face only sides over which their own plot is
merged. -/
theorem wall_falls (a : Area) (m : Merges) (x z : Int32) (owner : PlotId) (segment : Segment)
    (hwall : a.ground x z = .ok (.wall owner segment)) :
    (∃ id, a.mergedGround m x z =
      .ok (if Falls (a.isMerged m) owner segment then .plot id else .wall owner segment)) ∧
      (m.Mutual → Falls (a.isMerged m) owner segment = a.suppresses m owner segment) := by
  cases hg : a.grid with
  | error e =>
      rw [ground, hg] at hwall
      cases hwall
  | ok g =>
      rw [ground_eq_of_grid hg] at hwall
      have hperiod := Grid.two_le_period_of_wall hwall
      obtain ⟨hproper, hground⟩ := Ground.ofBandsMerged_of_wall (a.isMerged m)
        (Grid.band_sound hperiod x) (Grid.band_sound hperiod z) hwall
      rw [mergedGround_eq_of_grid hg]
      exact ⟨hground, fun hm => falls_of_mutual hm hproper⟩

/-- One plot is merged eastward, and its eastern neighbour is not merged back. -/
def eastward : Merges := .ofSides [(⟨0, 0⟩, .east)]

/-- The western wall of the neighbour. -/
theorem wall_falls_eastward :
    standard.ground 42 10 = .ok (.wall ⟨1, 0⟩ (.edge .west)) ∧
      ∃ id, standard.mergedGround eastward 42 10 =
        .ok (if Falls (standard.isMerged eastward) ⟨1, 0⟩ (.edge .west) then .plot id
          else .wall ⟨1, 0⟩ (.edge .west)) := by
  have hwall : standard.ground 42 10 = .ok (.wall ⟨1, 0⟩ (.edge .west)) := rfl
  exact ⟨hwall, (wall_falls standard eastward 42 10 ⟨1, 0⟩ (.edge .west) hwall).1⟩

/-- Walls do not fall by the flags of their own plots alone. -/
theorem not_suppressed_by_owner :
    ¬ ∀ (a : Area) (m : Merges), Fits (a.plotSize.toInt + a.roadWidth.toInt) →
      ∀ x z owner segment, a.ground x z = .ok (.wall owner segment) →
        ∃ ground, a.mergedGround m x z = .ok ground ∧
          (ground.isPlot = true ↔ a.suppresses m owner segment = true) ∧
          (ground.isPlot = false → ground = .wall owner segment) := by
  intro hall
  obtain ⟨ground, hground, hiff, -⟩ := hall standard eastward (by decide) 42 10 ⟨1, 0⟩
    (.edge .west) rfl
  have hplot : standard.mergedGround eastward 42 10 = .ok (.plot ⟨0, 0⟩) := rfl
  cases hplot.symm.trans hground
  -- The neighbour itself is merged with nobody.
  have hstands : standard.suppresses eastward ⟨1, 0⟩ (.edge .west) = false := by decide
  rw [hstands] at hiff
  exact Bool.false_ne_true (hiff.mp rfl)

end Area

end Cadastre
