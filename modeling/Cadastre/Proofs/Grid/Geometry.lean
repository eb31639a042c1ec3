import Cadastre.Proofs.Grid.Contact
/-!
# Cadastre.Proofs.Grid.Geometry

**What the columns of an unmerged grid are, exactly.** `Area.ground_geometry` says for every column
of the world whether it is plot, road or wall, whose and on which side, by its distance from the
plots; and where the corners of each plot are.

Distances count a step over a corner as one, so the wall around a plot is what lies at a distance of
one from it.
-/

namespace Cadastre

namespace Ground

theorem at_eq_plot_iff {id id' : PlotId} {dx dz : Int} :
    Ground.at id dx dz = .plot id' ↔ id = id' ∧ dx = 0 ∧ dz = 0 := by
  unfold Ground.at
  split
  case isTrue h => simp [h]
  case isFalse h => simp [h]

theorem at_eq_wall_iff {id id' : PlotId} {dx dz : Int} {seg : Segment} :
    Ground.at id dx dz = .wall id' seg ↔ id = id' ∧ ¬(dx = 0 ∧ dz = 0) ∧ seg = .at dx dz := by
  unfold Ground.at
  split
  case isTrue h => simp [h]
  case isFalse h => simp [h, eq_comm]

theorem at_ne_road {id : PlotId} {dx dz : Int} : Ground.at id dx dz ≠ .road := by
  unfold Ground.at
  split <;> simp

end Ground

namespace Grid

variable {g : Grid}

/-! ### Plot, wall and road by distance -/

/-- How far a column lies from a plot on the `x` axis. -/
def awayX (g : Grid) (id : PlotId) (x : Int32) : Int := g.away g.offsetX id.x x

/-- How far a column lies from a plot on the `z` axis. -/
def awayZ (g : Grid) (id : PlotId) (z : Int32) : Int := g.away g.offsetZ id.z z

/-- The distance of a column from a plot. A step over a corner counts as one. -/
def distance (g : Grid) (id : PlotId) (x z : Int32) : Nat :=
  max (g.awayX id x).natAbs (g.awayZ id z).natAbs

/-- The part of a plot's wall on the side where a column lies. -/
def side (g : Grid) (id : PlotId) (x z : Int32) : Segment := .at (g.awayX id x) (g.awayZ id z)

/-- Every column that is no road is the ground at its distance from the one plot it touches. -/
theorem ground_eq_iff (h : 2 ≤ g.period) {x z : Int32} {ground : Ground} (hroad : ground ≠ .road) :
    g.ground x z = .ok ground ↔
      ∃ id : PlotId, g.Touches g.offsetX id.x x ∧ g.Touches g.offsetZ id.z z ∧
        ground = .at id (g.awayX id x) (g.awayZ id z) := by
  constructor
  · intro hg
    rcases ground_cases h x z with ⟨id, hx, hz⟩ | ⟨_, hr⟩
    · rw [ground_of_touches h hx hz] at hg
      exact ⟨id, hx, hz, (Except.ok.inj hg).symm⟩
    · rw [hr] at hg
      exact absurd (Except.ok.inj hg).symm hroad
  · rintro ⟨id, hx, hz, rfl⟩
    exact ground_of_touches h hx hz

theorem ground_eq_plot_iff (h : 2 ≤ g.period) {x z : Int32} {id : PlotId} :
    g.ground x z = .ok (.plot id) ↔ g.awayX id x = 0 ∧ g.awayZ id z = 0 := by
  rw [ground_eq_iff h (by simp)]
  constructor
  · rintro ⟨id', _, _, hat⟩
    obtain ⟨rfl, hx, hz⟩ := Ground.at_eq_plot_iff.mp hat.symm
    exact ⟨hx, hz⟩
  · rintro ⟨hx, hz⟩
    exact ⟨id, .inl hx, .inl hz, (Ground.at_eq_plot_iff.mpr ⟨rfl, hx, hz⟩).symm⟩

theorem ground_eq_wall_iff (h : 2 ≤ g.period) {x z : Int32} {id : PlotId} {seg : Segment} :
    g.ground x z = .ok (.wall id seg) ↔
      g.Touches g.offsetX id.x x ∧ g.Touches g.offsetZ id.z z ∧ g.distance id x z ≠ 0 ∧
        seg = g.side id x z := by
  have hd : g.distance id x z ≠ 0 ↔ ¬(g.awayX id x = 0 ∧ g.awayZ id z = 0) := by
    unfold distance
    omega
  rw [ground_eq_iff h (by simp), hd]
  constructor
  · rintro ⟨id', hx, hz, hat⟩
    obtain ⟨rfl, hne, hseg⟩ := Ground.at_eq_wall_iff.mp hat.symm
    exact ⟨hx, hz, hne, hseg⟩
  · rintro ⟨hx, hz, hne, hseg⟩
    exact ⟨id, hx, hz, (Ground.at_eq_wall_iff.mpr ⟨rfl, hne, hseg⟩).symm⟩

/-- A column is road exactly if it touches no plot. -/
theorem ground_eq_road_iff (h : 2 ≤ g.period) {x z : Int32} :
    g.ground x z = .ok .road ↔
      ∀ id : PlotId, ¬(g.Touches g.offsetX id.x x ∧ g.Touches g.offsetZ id.z z) := by
  constructor
  · rintro hg id ⟨hx, hz⟩
    rw [ground_of_touches h hx hz] at hg
    exact Ground.at_ne_road (Except.ok.inj hg)
  · intro hnone
    rcases ground_cases h x z with ⟨id, ht⟩ | ⟨_, hr⟩
    · exact absurd ht (hnone id)
    · exact hr

theorem exists_ground (h : 2 ≤ g.period) (x z : Int32) : ∃ ground, g.ground x z = .ok ground := by
  rcases ground_cases h x z with ⟨id, hx, hz⟩ | ⟨_, hr⟩
  · exact ⟨_, ground_of_touches h hx hz⟩
  · exact ⟨_, hr⟩

/-! ### Touching, by the width of the roads -/

theorem touches_of_wide {offset cell w : Int32} (hw : 2 ≤ g.roadWidth.toInt) :
    g.Touches offset cell w ↔ (g.away offset cell w).natAbs ≤ 1 := by
  unfold Touches
  dsimp only
  omega

theorem touches_of_narrow {offset cell w : Int32} (hw : g.roadWidth.toInt = 1) :
    g.Touches offset cell w ↔
      (g.away offset cell w).natAbs ≤ 1 ∧ g.away offset cell w ≤ 0 := by
  unfold Touches
  dsimp only
  omega

theorem touches_of_none {offset cell w : Int32} (hw : g.roadWidth.toInt = 0) :
    g.Touches offset cell w ↔ g.away offset cell w = 0 := by
  unfold Touches
  dsimp only
  omega

/-- Where roads have less than two columns, nothing but walls is left of them. -/
theorem exists_touches (h : 2 ≤ g.period) (hw : g.roadWidth.toInt ≤ 1) (offset w : Int32) :
    ∃ cell, g.Touches offset cell w := by
  cases hband : g.band offset w with
  | body n => exact ⟨n, ((contact_eq_some_iff h).mp (by rw [hband]; rfl)).2⟩
  | gap n part =>
      have hgap := (band_eq_gap_iff h).mp hband
      have hpart : part = .high := by
        rw [← hgap.2.2, gapPart_eq_high_iff]
        omega
      subst hpart
      exact ⟨n + 1, ((contact_eq_some_iff h).mp (by rw [hband]; rfl)).2⟩

/-- With roads of two columns or more, the wall of a plot is all that lies at a distance of one. -/
theorem ground_eq_wall_iff_of_wide (h : 2 ≤ g.period) (hw : 2 ≤ g.roadWidth.toInt) {x z : Int32}
    {id : PlotId} {seg : Segment} :
    g.ground x z = .ok (.wall id seg) ↔ g.distance id x z = 1 ∧ seg = g.side id x z := by
  have hd : g.distance id x z = 1 ↔
      g.Touches g.offsetX id.x x ∧ g.Touches g.offsetZ id.z z ∧ g.distance id x z ≠ 0 := by
    rw [touches_of_wide hw, touches_of_wide hw]
    unfold distance awayX awayZ
    omega
  rw [ground_eq_wall_iff h, hd, and_assoc, and_assoc]

/-- With roads of a single column, the wall of a plot is what lies at a distance of one before it.
-/
theorem ground_eq_wall_iff_of_narrow (h : 2 ≤ g.period) (hw : g.roadWidth.toInt = 1) {x z : Int32}
    {id : PlotId} {seg : Segment} :
    g.ground x z = .ok (.wall id seg) ↔
      g.distance id x z = 1 ∧ g.awayX id x ≤ 0 ∧ g.awayZ id z ≤ 0 ∧ seg = g.side id x z := by
  have hd : (g.distance id x z = 1 ∧ g.awayX id x ≤ 0 ∧ g.awayZ id z ≤ 0) ↔
      g.Touches g.offsetX id.x x ∧ g.Touches g.offsetZ id.z z ∧ g.distance id x z ≠ 0 := by
    rw [touches_of_narrow hw, touches_of_narrow hw]
    unfold distance awayX awayZ
    omega
  rw [ground_eq_wall_iff h, ← and_assoc, ← and_assoc, and_assoc (b := g.Touches _ _ _), ← hd]
  simp only [and_assoc]

/-- Without roads every column is plot. -/
theorem exists_ground_eq_plot (h : 2 ≤ g.period) (hw : g.roadWidth.toInt = 0) (x z : Int32) :
    ∃ id, g.ground x z = .ok (.plot id) := by
  obtain ⟨cx, hx⟩ := exists_touches h (by omega) g.offsetX x
  obtain ⟨cz, hz⟩ := exists_touches h (by omega) g.offsetZ z
  exact ⟨⟨cx, cz⟩, (ground_eq_plot_iff h).mpr
    ⟨(touches_of_none hw).mp hx, (touches_of_none hw).mp hz⟩⟩

/-- Road is what lies farther than one from every plot, between roads of two columns or more. -/
theorem ground_eq_road_iff_of_distance (h : 2 ≤ g.period) {x z : Int32} :
    g.ground x z = .ok .road ↔ 2 ≤ g.roadWidth.toInt ∧ ∀ id, 2 ≤ g.distance id x z := by
  rw [ground_eq_road_iff h]
  constructor
  · intro hnone
    have hw : 2 ≤ g.roadWidth.toInt := by
      by_contra hlt
      obtain ⟨cx, hx⟩ := exists_touches h (by omega) g.offsetX x
      obtain ⟨cz, hz⟩ := exists_touches h (by omega) g.offsetZ z
      exact hnone ⟨cx, cz⟩ ⟨hx, hz⟩
    refine ⟨hw, fun id => ?_⟩
    have hid := hnone id
    rw [touches_of_wide hw, touches_of_wide hw] at hid
    unfold distance awayX awayZ
    omega
  · rintro ⟨hw, hfar⟩ id
    have hid := hfar id
    rw [touches_of_wide hw, touches_of_wide hw]
    unfold distance awayX awayZ at hid
    omega

/-! ### Corners of plots -/

/-- The start of a cell in 32 bits is the exact one, wrapped around. -/
theorem cellStart_eq (offset cell : Int32) :
    g.cellStart offset cell = Int32.ofInt (g.start offset cell.toInt) := by
  have hr := g.roadWidth_nonneg
  have hhalf : Int32.ofInt (g.roadWidth.toInt / 2) = g.roadWidth / 2 := by
    have htwo : (g.roadWidth / 2).toInt = g.roadWidth.toInt / 2 := Int32.toInt_div_of_nonneg hr
    rw [← htwo, Int32.ofInt_toInt]
  simp only [cellStart, start, period, Int32.ofInt_sub, Int32.ofInt_add, Int32.ofInt_mul,
    Int32.ofInt_toInt, hhalf]

theorem toInt_plotBottom {id : PlotId} (hx : Fits (g.plotLow g.offsetX id.x))
    (hz : Fits (g.plotLow g.offsetZ id.z)) :
    (g.plotBottom id).1.toInt = g.plotLow g.offsetX id.x ∧
      (g.plotBottom id).2.toInt = g.plotLow g.offsetZ id.z := by
  have hlow (offset cell : Int32) :
      g.cellStart offset cell + g.roadWidth = Int32.ofInt (g.plotLow offset cell) := by
    rw [cellStart_eq, plotLow, Int32.ofInt_add, Int32.ofInt_toInt]
  simp only [plotBottom, cellOrigin, hlow]
  exact ⟨Int32.toInt_ofInt_of_fits hx, Int32.toInt_ofInt_of_fits hz⟩

theorem toInt_plotTop {id : PlotId} (hx : Fits (g.plotHigh g.offsetX id.x))
    (hz : Fits (g.plotHigh g.offsetZ id.z)) :
    (g.plotTop id).1.toInt = g.plotHigh g.offsetX id.x ∧
      (g.plotTop id).2.toInt = g.plotHigh g.offsetZ id.z := by
  have hhigh (offset cell : Int32) :
      g.cellStart offset cell + (g.plotSize + g.roadWidth - 1) =
        Int32.ofInt (g.plotHigh offset cell) := by
    have hone : Int32.ofInt 1 = 1 := rfl
    rw [cellStart_eq, plotHigh, period, Int.add_sub_assoc, Int32.ofInt_add, Int32.ofInt_sub,
      Int32.ofInt_add, Int32.ofInt_toInt, Int32.ofInt_toInt, hone]
  simp only [plotTop, cellOrigin, hhigh]
  exact ⟨Int32.toInt_ofInt_of_fits hx, Int32.toInt_ofInt_of_fits hz⟩

end Grid

/-! ### The geometry of an area -/

/-- **The ground of an unmerged area.** With a period of at least two that fits, every column of the
world has a ground. It is a plot exactly between the plot's ends on both axes. With roads of two
columns or more the wall of a plot is what lies at a distance of one from it, on the side that the
segment names, and the road is what lies farther from every plot. A single column between plots is
the wall of the plot behind it, and without roads there are only plots. On the way no cell number is
cut short, and the corners of a plot are exact where they fit. -/
theorem Area.ground_geometry (a : Area) (hfits : Fits (a.plotSize.toInt + a.roadWidth.toInt))
    (htwo : 2 ≤ a.plotSize.toInt + a.roadWidth.toInt) :
    ∃ g, a.grid = .ok g ∧
      (∀ x z, ∃ ground, a.ground x z = .ok ground ∧
        (∀ id, ground = .plot id ↔
          (g.plotLow g.offsetX id.x ≤ x.toInt ∧ x.toInt ≤ g.plotHigh g.offsetX id.x) ∧
            g.plotLow g.offsetZ id.z ≤ z.toInt ∧ z.toInt ≤ g.plotHigh g.offsetZ id.z) ∧
        (2 ≤ a.roadWidth.toInt → ∀ id seg, ground = .wall id seg ↔
          g.distance id x z = 1 ∧ seg = g.side id x z) ∧
        (a.roadWidth.toInt = 1 → ∀ id seg, ground = .wall id seg ↔
          g.distance id x z = 1 ∧ g.awayX id x ≤ 0 ∧ g.awayZ id z ≤ 0 ∧ seg = g.side id x z) ∧
        (a.roadWidth.toInt = 0 → ∃ id, ground = .plot id) ∧
        (ground = .road ↔ 2 ≤ a.roadWidth.toInt ∧ ∀ id, 2 ≤ g.distance id x z)) ∧
      (∀ offset w, (g.band offset w).cell.toInt =
        if g.roadWidth.toInt ≤ g.placeAt offset w then g.cellAt offset w
        else g.cellAt offset w - 1) ∧
      ∀ id,
        (Fits (g.plotLow g.offsetX id.x) → Fits (g.plotLow g.offsetZ id.z) →
          (g.plotBottom id).1.toInt = g.plotLow g.offsetX id.x ∧
            (g.plotBottom id).2.toInt = g.plotLow g.offsetZ id.z) ∧
        (Fits (g.plotHigh g.offsetX id.x) → Fits (g.plotHigh g.offsetZ id.z) →
          (g.plotTop id).1.toInt = g.plotHigh g.offsetX id.x ∧
            (g.plotTop id).2.toInt = g.plotHigh g.offsetZ id.z) := by
  obtain ⟨g, hg, hsize, hwidth, -, -⟩ := exists_grid hfits
  have h : 2 ≤ g.period := by rw [Grid.period, hsize, hwidth]; exact htwo
  refine ⟨g, hg, fun x z => ?_, fun offset w => Grid.cell_band h offset w,
    fun id => ⟨Grid.toInt_plotBottom, Grid.toInt_plotTop⟩⟩
  obtain ⟨ground, hground⟩ := Grid.exists_ground h x z
  -- There is one ground, so what it is and what it is not can be asked of the grid.
  have hiff (other : Ground) : ground = other ↔ g.ground x z = .ok other := by
    rw [hground, Except.ok.injEq]
  refine ⟨ground, by rw [ground_eq_of_grid hg, hground], fun id => ?_, fun hw id seg => ?_,
    fun hw id seg => ?_, fun hw => ?_, ?_⟩
  · rw [hiff, Grid.ground_eq_plot_iff h, Grid.awayX, Grid.awayZ, Grid.away_eq_zero_iff,
      Grid.away_eq_zero_iff]
  · rw [hiff, Grid.ground_eq_wall_iff_of_wide h (hwidth ▸ hw)]
  · rw [hiff, Grid.ground_eq_wall_iff_of_narrow h (hwidth ▸ hw)]
  · obtain ⟨id, hid⟩ := Grid.exists_ground_eq_plot h (hwidth ▸ hw) x z
    exact ⟨id, (hiff _).mpr hid⟩
  · rw [hiff, Grid.ground_eq_road_iff_of_distance h, hwidth]

/-- The last column of a gap on one axis and the first on the other: the corner of a wall. -/
theorem Area.ground_geometry_corner :
    (Fits (standard.plotSize.toInt + standard.roadWidth.toInt) ∧
      2 ≤ standard.plotSize.toInt + standard.roadWidth.toInt) ∧
      standard.ground (-36) (-3) = .ok (.wall ⟨-1, -1⟩ (.corner .west .south)) := by
  refine ⟨by decide, ?_⟩
  obtain ⟨g, hg, hall, -⟩ := ground_geometry standard (by decide) (by decide)
  obtain ⟨ground, hground, -, hwall, -⟩ := hall (-36) (-3)
  cases Except.ok.inj (show Except.ok _ = Except.ok g from hg)
  rw [hground, (hwall (by decide) ⟨-1, -1⟩ (.corner .west .south)).mpr (by decide)]

end Cadastre
