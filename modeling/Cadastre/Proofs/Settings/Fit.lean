import Cadastre.Proofs.Edit
import Cadastre.Proofs.Grid.Claims
import Cadastre.Proofs.Grid.Geometry
import Cadastre.Settings.Fit
/-!
# Cadastre.Proofs.Settings.Fit

**What a fitted area claims, and where its plots are.** A fit lays a number of cells on each axis
and puts the first column of the gap behind the last of them at the highest column of the rectangle
(`Settings.FitsAxis.start_eq`). Two things follow.

* Of the rectangle's columns those are claimed that the cells reach from there down, and the highest
  only if there is a gap behind the last plot (`Settings.fit_claims`). The number of cells is
  rounded to the nearest, so they may be too few; without roads the highest column is never claimed.
* Where the cells have exactly the length of the rectangle, the number is right and every plot lies
  one column too low (`Settings.fit_exact_ends`).

On the way from the corners to the offset all is computed in 32 bits with checks, so a fit that
succeeds has computed the exact values (`Settings.fit_eq_ok`).
-/

namespace Cadastre

namespace Settings

variable {s s' : Settings} {a b w count offset : Int32}

/-! ### The numbers of a fit, exactly -/

/-- The lowest column between two. -/
def low (a b : Int32) : Int := min a.toInt b.toInt

/-- The highest column between two. -/
def high (a b : Int32) : Int := max a.toInt b.toInt

/-- The edge of a grid cell in unbounded integers. -/
def pitch (s : Settings) : Int := s.plotSize.toInt + s.roadWidth.toInt

/-- The number of cells that a fit lays between two columns: what the columns and one more gap are
in cells, rounded to the nearest, but at least one. -/
def cellsBetween (s : Settings) (a b : Int32) : Int :=
  max ((high a b - low a b + 1 + s.roadWidth.toInt + s.pitch / 2) / s.pitch) 1

theorem span_eq_ok {d : Int32} (h : span a b = .ok d) : d.toInt = high a b - low a b := by
  obtain ⟨e, hsub, habs⟩ := exists_of_bind_eq_ok h
  have hsub := exact_eq_ok_iff.mp hsub
  have habs := exact_eq_ok_iff.mp habs
  unfold high low
  omega

theorem cells_eq_ok {period d : Int32} (hroad : 0 ≤ s.roadWidth.toInt)
    (hperiod : period.toInt = s.pitch) (hpitch : 0 < s.pitch) (hd : d.toInt = high a b - low a b)
    (h : cells s.roadWidth period d = .ok count) : count.toInt = s.cellsBetween a b := by
  obtain ⟨c₁, h₁, h⟩ := exists_of_bind_eq_ok h
  obtain ⟨c₂, h₂, h⟩ := exists_of_bind_eq_ok h
  obtain ⟨columns, h₃, h⟩ := exists_of_bind_eq_ok h
  have h₁ := exact_eq_ok_iff.mp h₁
  rw [Int32.toInt_one] at h₁
  have h₂ := exact_eq_ok_iff.mp h₂
  have h₃ := exact_eq_ok_iff.mp h₃
  have hhalf : (period / 2).toInt = period.toInt / 2 := Int32.toInt_div_of_nonneg (by omega)
  have hnonneg : 0 ≤ columns.toInt := by
    unfold high low at hd
    omega
  have hcolumns :
      columns.toInt = high a b - low a b + 1 + s.roadWidth.toInt + s.pitch / 2 := by
    omega
  cases h
  rw [Int32.toInt_max, Int32.toInt_div_of_nonneg hnonneg, hcolumns, hperiod, Int32.toInt_one,
    cellsBetween]

theorem excess_eq_ok {period d e : Int32} (h : excess s.roadWidth period d count = .ok e) :
    e.toInt = d.toInt - (count.toInt * period.toInt - s.roadWidth.toInt) := by
  obtain ⟨length, hmul, h⟩ := exists_of_bind_eq_ok h
  obtain ⟨plots, hsub, h⟩ := exists_of_bind_eq_ok h
  rw [exact_eq_ok_iff.mp h, exact_eq_ok_iff.mp hsub, exact_eq_ok_iff.mp hmul]

theorem offsetFor_eq_ok {start : Int32} (hroad : 0 ≤ s.roadWidth.toInt)
    (h : offsetFor s.roadWidth start = .ok offset) :
    offset.toInt = start.toInt - s.roadWidth.toInt + s.roadWidth.toInt / 2 := by
  obtain ⟨first, hsub, h⟩ := exists_of_bind_eq_ok h
  have hhalf : (s.roadWidth / 2).toInt = s.roadWidth.toInt / 2 := Int32.toInt_div_of_nonneg hroad
  rw [exact_eq_ok_iff.mp h, exact_eq_ok_iff.mp hsub, hhalf]

/-- One axis of settings that were fitted to the columns between two: how many cells there are, and
where the grid is put. The column at which the first plot begins is in range. -/
structure FitsAxis (s : Settings) (a b count offset : Int32) : Prop where
  count_eq : count.toInt = s.cellsBetween a b
  offset_eq : offset.toInt = high a b - s.cellsBetween a b * s.pitch + s.roadWidth.toInt / 2
  start_fits : Fits (high a b - s.cellsBetween a b * s.pitch + s.roadWidth.toInt)

/-- The settings with bounds from the first cell to a last one, and with the grid put elsewhere. -/
def placed (s : Settings) (last : PlotId) (offsetX offsetZ : Int32) : Settings :=
  { s with minPlot := some ⟨0, 0⟩, maxPlot := some last, roadOffsetX := offsetX,
           roadOffsetZ := offsetZ }

/-- **What a fit does** to settings of sensible sizes, if nothing overflows. -/
theorem fit_eq_ok {ax az bx bz : Int32} (hsize : 1 ≤ s.plotSize.toInt)
    (hroad : 0 ≤ s.roadWidth.toInt) (h : fit ax az bx bz s = .ok () s') :
    Fits s.pitch ∧ ∃ countX countZ offsetX offsetZ,
      s.FitsAxis ax bx countX offsetX ∧ s.FitsAxis az bz countZ offsetZ ∧
        s' = s.placed ⟨countX - 1, countZ - 1⟩ offsetX offsetZ := by
  obtain ⟨period, hperiod, h⟩ := Edit.exists_of_liftM_bind_ok (x := s.period) h
  obtain ⟨spanX, hspanX, h⟩ := Edit.exists_of_liftM_bind_ok h
  obtain ⟨spanZ, hspanZ, h⟩ := Edit.exists_of_liftM_bind_ok h
  obtain ⟨countX, hcountX, h⟩ := Edit.exists_of_liftM_bind_ok h
  obtain ⟨countZ, hcountZ, h⟩ := Edit.exists_of_liftM_bind_ok h
  obtain ⟨excessX, hexcessX, h⟩ := Edit.exists_of_liftM_bind_ok h
  obtain ⟨excessZ, hexcessZ, h⟩ := Edit.exists_of_liftM_bind_ok h
  obtain ⟨startX, hstartX, h⟩ := Edit.exists_of_liftM_bind_ok h
  obtain ⟨startZ, hstartZ, h⟩ := Edit.exists_of_liftM_bind_ok h
  obtain ⟨_, s₁, hbounds, h⟩ := Edit.exists_of_bind_ok h
  obtain ⟨offsetX, hoffsetX, h⟩ := Edit.exists_of_liftM_bind_ok h
  obtain ⟨_, s₂, hplacedX, h⟩ := Edit.exists_of_bind_ok h
  obtain ⟨offsetZ, hoffsetZ, h⟩ := Edit.exists_of_liftM_bind_ok h
  cases hbounds
  cases hplacedX
  cases h
  have hperiod : period.toInt = s.pitch := exact_eq_ok_iff.mp hperiod
  have hpitch : 0 < s.pitch := by
    unfold pitch
    omega
  have hmax : (max period 1).toInt = s.pitch := by
    rw [Int32.toInt_max, hperiod, Int32.toInt_one]
    omega
  -- The axes do not depend on each other, so what is said of one is said of both.
  have haxis {a b span count excess start offset : Int32} (hspan : Settings.span a b = .ok span)
      (hcount : cells s.roadWidth (max period 1) span = .ok count)
      (hexcess : Settings.excess s.roadWidth (max period 1) span count = .ok excess)
      (hstart : Checked.add (min a b) excess = .ok start)
      (hoffset : offsetFor s.roadWidth start = .ok offset) : s.FitsAxis a b count offset := by
    have hspan := span_eq_ok hspan
    have hcount := cells_eq_ok hroad hmax hpitch hspan hcount
    have hexcess := excess_eq_ok hexcess
    rw [hspan, hcount, hmax] at hexcess
    have hstart : start.toInt = high a b - s.cellsBetween a b * s.pitch + s.roadWidth.toInt := by
      have hsum := exact_eq_ok_iff.mp hstart
      rw [Int32.toInt_min, ← low] at hsum
      omega
    refine ⟨hcount, ?_, hstart ▸ Int32.fits_toInt start⟩
    rw [offsetFor_eq_ok hroad hoffset, hstart]
    omega
  exact ⟨hperiod ▸ Int32.fits_toInt period, countX, countZ, offsetX, offsetZ,
    haxis hspanX hcountX hexcessX hstartX hoffsetX, haxis hspanZ hcountZ hexcessZ hstartZ hoffsetZ,
    rfl⟩

/-! ### One axis of a fitted grid -/

theorem one_le_cellsBetween (s : Settings) (a b : Int32) : 1 ≤ s.cellsBetween a b :=
  le_max_right _ _

/-- The number of the last cell is in range. -/
theorem FitsAxis.toInt_last (h : s.FitsAxis a b count offset) :
    (count - 1).toInt = s.cellsBetween a b - 1 := by
  have hleast := s.one_le_cellsBetween a b
  obtain ⟨-, hmost⟩ := Int32.fits_toInt count
  rw [h.count_eq] at hmost
  rw [Int32.toInt_sub_of_fits, Int32.toInt_one, h.count_eq]
  rw [Int32.toInt_one, h.count_eq]
  exact ⟨by omega, by omega⟩

/-- A grid with the measures of settings. -/
structure Measures (s : Settings) (g : Grid) : Prop where
  plotSize_eq : g.plotSize = s.plotSize
  roadWidth_eq : g.roadWidth = s.roadWidth

theorem Measures.period_eq {g : Grid} (h : s.Measures g) : g.period = s.pitch := by
  rw [Grid.period, h.plotSize_eq, h.roadWidth_eq, pitch]

/-- The cells of a fitted axis are counted from the gap behind the last plot, whose first column is
the highest of all. -/
theorem FitsAxis.start_eq {g : Grid} (h : s.FitsAxis a b count offset) (hg : s.Measures g)
    (cell : Int) : g.start offset cell = high a b + (cell - s.cellsBetween a b) * s.pitch := by
  rw [Grid.start, h.offset_eq, hg.period_eq, hg.roadWidth_eq, Int.sub_mul]
  omega

theorem FitsAxis.start_zero {g : Grid} (h : s.FitsAxis a b count offset) (hg : s.Measures g) :
    g.start offset 0 = high a b - s.cellsBetween a b * s.pitch := by
  rw [h.start_eq hg, Int.zero_sub, Int.neg_mul, Int.sub_eq_add_neg]

theorem FitsAxis.start_last {g : Grid} (h : s.FitsAxis a b count offset) (hg : s.Measures g) :
    g.start offset (count - 1).toInt = high a b - s.pitch := by
  have hbefore : s.cellsBetween a b - 1 - s.cellsBetween a b = -1 := by omega
  rw [h.start_eq hg, h.toInt_last, hbefore, Int.neg_one_mul, Int.sub_eq_add_neg]

/-- A column that lies between two, both included. -/
def Between (a b w : Int32) : Prop := low a b ≤ w.toInt ∧ w.toInt ≤ high a b

/-- A column that is reached by the cells that a fit lays between two, or by the gap behind them. -/
def Reaches (s : Settings) (a b w : Int32) : Prop :=
  high a b - s.cellsBetween a b * s.pitch ≤ w.toInt ∧ w.toInt < high a b + s.roadWidth.toInt

/-- Every column between two is reached: there is a gap behind the last plot, for the highest, and
the cells are long enough for the lowest. -/
def Covers (s : Settings) (a b : Int32) : Prop :=
  1 ≤ s.roadWidth.toInt ∧ high a b - low a b ≤ s.cellsBetween a b * s.pitch

instance : Decidable (s.Reaches a b w) := inferInstanceAs (Decidable (_ ∧ _))
instance : Decidable (s.Covers a b) := inferInstanceAs (Decidable (_ ∧ _))
instance : Decidable (Between a b w) := inferInstanceAs (Decidable (_ ∧ _))

theorem between_min (a b : Int32) : Between a b (min a b) := by
  rw [Between, Int32.toInt_min, low, high]
  omega

theorem between_max (a b : Int32) : Between a b (max a b) := by
  rw [Between, Int32.toInt_max, low, high]
  omega

/-- The two ends decide whether every column is reached. -/
theorem covers_iff : s.Covers a b ↔ ∀ w, Between a b w → s.Reaches a b w := by
  constructor
  · rintro ⟨hroad, hlong⟩ w ⟨hlow, hhigh⟩
    exact ⟨by omega, by omega⟩
  · intro hall
    have hlowest := (hall _ (between_min a b)).1
    have hhighest := (hall _ (between_max a b)).2
    rw [Int32.toInt_min, ← low] at hlowest
    rw [Int32.toInt_max, ← high] at hhighest
    exact ⟨by omega, by omega⟩

/-- The bounds of a fit claim a column between its corners exactly if it is reached. -/
theorem FitsAxis.within_band_iff {g : Grid} (h : s.FitsAxis a b count offset) (hg : s.Measures g)
    (hw : Between a b w) :
    Grid.within 0 (count - 1) (g.band offset w) = true ↔ s.Reaches a b w := by
  by_cases htwo : 2 ≤ g.period
  · rw [Grid.within_band_iff htwo, Int32.toInt_zero, h.start_zero hg, h.start_last hg,
      hg.period_eq, hg.roadWidth_eq, Reaches]
    omega
  · -- Plots of one column without roads: a cell's number is its distance from the first.
    have hpos := g.period_pos
    have hone : g.period = 1 := by omega
    have hnone : g.roadWidth.toInt = 0 := by
      by_contra hne
      exact htwo (Grid.two_le_period hne)
    have hpitch : s.pitch = 1 := by rw [← hg.period_eq, hone]
    have hroad : s.roadWidth.toInt = 0 := by rw [← hg.roadWidth_eq, hnone]
    have hcell : g.cellAt offset w = w.toInt - high a b + s.cellsBetween a b := by
      rw [Grid.cellAt, hone, hnone, Int.ediv_one, h.offset_eq, hpitch, hroad]
      omega
    have hcells : high a b - low a b + 1 ≤ s.cellsBetween a b := by
      rw [cellsBetween, hpitch, hroad]
      omega
    unfold Between at hw
    have hfits : Fits (g.cellAt offset w) := by
      obtain ⟨-, hmost⟩ := Int32.fits_toInt count
      rw [h.count_eq] at hmost
      exact ⟨by omega, by omega⟩
    rw [Grid.within_band_iff_of_roadless hnone hfits, h.toInt_last, Int32.toInt_zero, hcell,
      Reaches, hpitch, hroad]
    omega

/-! ### Fitted areas -/

/-- The grid and the bounds of an area that was made from placed settings. -/
theorem exists_grid_of_placed {last : PlotId} {offsetX offsetZ : Int32} {world : String}
    {area : Area} (hfits : Fits s.pitch)
    (h : Area.ofSettings world (s.placed last offsetX offsetZ) = .ok area) :
    ∃ g bounds, area.grid = .ok g ∧ area.bounds = some bounds ∧ s.Measures g ∧
      (g.offsetX = offsetX ∧ g.offsetZ = offsetZ) ∧ bounds.min = ⟨0, 0⟩ ∧ bounds.max = last := by
  obtain ⟨⟨-, hplot, hwidth⟩, ⟨hoffX, hoffZ⟩, hbounds⟩ := Area.ofSettings_layout h
  simp only [placed] at hplot hwidth hoffX hoffZ
  rw [pitch, ← hplot, ← hwidth] at hfits
  obtain ⟨g, hg, hgplot, hgwidth, hgX, hgZ⟩ := Area.exists_grid hfits
  simp only [placed, Area.checkBounds] at hbounds
  split at hbounds
  case isFalse => cases hbounds
  case isTrue =>
      exact ⟨g, _, hg, (Except.ok.inj hbounds).symm, ⟨hgplot.trans hplot, hgwidth.trans hwidth⟩,
        ⟨hgX.trans hoffX, hgZ.trans hoffZ⟩, rfl, rfl⟩

/-- **Which columns a fitted area claims.** Let settings with plots and without negative roads be
fitted to the rectangle between two corners without overflow, and let an area accept them. It is
answered for every column of the rectangle whether the area claims it, and it does exactly if on
both axes the column is reached by the cells and the gap behind the last plot, whose first column is
the highest of the rectangle. So the rectangle is covered exactly if there are roads and on both
axes the cells, whose number is rounded to the nearest, are as long as the corners are apart. -/
theorem fit_claims (s s' : Settings) (ax az bx bz : Int32) (world : String) (area : Area)
    (hsize : 1 ≤ s.plotSize.toInt) (hroad : 0 ≤ s.roadWidth.toInt)
    (hfit : fit ax az bx bz s = .ok () s') (harea : Area.ofSettings world s' = .ok area) :
    (∀ x z, Between ax bx x → Between az bz z → ∃ claimed, area.isClaimed x z = .ok claimed ∧
      (claimed = true ↔ s.Reaches ax bx x ∧ s.Reaches az bz z)) ∧
    ((∀ x z, Between ax bx x → Between az bz z → area.isClaimed x z = .ok true) ↔
      s.Covers ax bx ∧ s.Covers az bz) := by
  obtain ⟨hfits, countX, countZ, offsetX, offsetZ, hX, hZ, rfl⟩ := fit_eq_ok hsize hroad hfit
  obtain ⟨g, bounds, hg, hbounds, hmeasures, ⟨rfl, rfl⟩, hmin, hmax⟩ :=
    exists_grid_of_placed hfits harea
  have hclaims (x z : Int32) (hx : Between ax bx x) (hz : Between az bz z) :
      g.claims area.bounds x z = true ↔ s.Reaches ax bx x ∧ s.Reaches az bz z := by
    rw [← hX.within_band_iff hmeasures hx, ← hZ.within_band_iff hmeasures hz, hbounds]
    simp only [Grid.claims, hmin, hmax, Bool.and_eq_true, Grid.bandX, Grid.bandZ]
  have hanswer (x z : Int32) : area.isClaimed x z = .ok (g.claims area.bounds x z) :=
    Area.isClaimed_eq_of_grid hg x z
  refine ⟨fun x z hx hz => ⟨_, hanswer x z, hclaims x z hx hz⟩, ?_⟩
  simp only [hanswer, Except.ok.injEq, covers_iff]
  constructor
  · intro hall
    refine ⟨fun x hx => ?_, fun z hz => ?_⟩
    · have hz := between_min az bz
      exact ((hclaims x _ hx hz).mp (hall x _ hx hz)).1
    · have hx := between_min ax bx
      exact ((hclaims _ z hx hz).mp (hall _ z hx hz)).2
  · rintro ⟨hx, hz⟩ x z hbx hbz
    exact (hclaims x z hbx hbz).mpr ⟨hx x hbx, hz z hbz⟩

/-- Three plots in a row with the roads between them: the whole rectangle is claimed. -/
theorem fit_claims_row :
    (1 ≤ (default : Settings).plotSize.toInt ∧ 0 ≤ (default : Settings).roadWidth.toInt) ∧
      ∃ s' area, fit 100 100 209 131 default = .ok () s' ∧
        Area.ofSettings "plotworld" s' = .ok area ∧
        ∀ x z, Between 100 209 x → Between 100 131 z → area.isClaimed x z = .ok true := by
  refine ⟨by decide, _, _, rfl, rfl, ?_⟩
  exact (fit_claims default _ 100 100 209 131 "plotworld" _ (by decide) (by decide) rfl rfl).2.mpr
    (by decide)

/-- Plots of ten columns side by side. -/
def roadless : Settings := { plotSize := 10, roadWidth := 0 }

/-- Columns of the rectangle that are not claimed: the highest one where there are no roads, though
the plot has the size of the rectangle; and the lowest one where a cell is laid for fifty-one
columns, because two would be farther off. -/
theorem fit_misses :
    (∃ s' area, fit 0 0 9 9 roadless = .ok () s' ∧ Area.ofSettings "plotworld" s' = .ok area ∧
      area.isClaimed 9 9 = .ok false) ∧
    ∃ s' area, fit 0 0 50 50 default = .ok () s' ∧ Area.ofSettings "plotworld" s' = .ok area ∧
      area.isClaimed 0 0 = .ok false :=
  ⟨⟨_, _, rfl, rfl, rfl⟩, _, _, rfl, rfl, rfl⟩

/-! ### Fits without remainder -/

/-- Where a number of cells has the length of the columns and one more gap, it is the number of
cells of the fit. -/
theorem cellsBetween_of_length {n : Int} (hn : 1 ≤ n) (hpitch : 0 < s.pitch)
    (h : high a b - low a b + 1 = n * s.pitch - s.roadWidth.toInt) : s.cellsBetween a b = n := by
  have hcolumns : high a b - low a b + 1 + s.roadWidth.toInt + s.pitch / 2 =
      s.pitch / 2 + n * s.pitch := by
    omega
  rw [cellsBetween, hcolumns, Int.add_mul_ediv_right _ _ hpitch.ne',
    Int.ediv_eq_zero_of_lt (by omega) (by omega), Int.zero_add]
  exact max_eq_left hn

/-- The ends of the row of plots that a fit lays on an axis. Whatever is fitted, the last plot ends
before the highest column. -/
theorem FitsAxis.plot_ends {g : Grid} (h : s.FitsAxis a b count offset) (hg : s.Measures g) :
    g.plotLow offset 0 = high a b - s.cellsBetween a b * s.pitch + s.roadWidth.toInt ∧
      g.plotHigh offset (count - 1) = high a b - 1 := by
  rw [Grid.plotLow, Grid.plotHigh, Int32.toInt_zero, h.start_zero hg, h.start_last hg,
    hg.period_eq, hg.roadWidth_eq]
  exact ⟨rfl, by omega⟩

/-- Where the cells have exactly the length of the columns, the row of plots lies one column below
them. -/
theorem FitsAxis.plot_ends_of_length {g : Grid} {n : Int} (h : s.FitsAxis a b count offset)
    (hg : s.Measures g) (hcells : s.cellsBetween a b = n)
    (hlength : high a b - low a b + 1 = n * s.pitch - s.roadWidth.toInt) :
    (g.plotLow offset 0 = low a b - 1 ∧ Fits (g.plotLow offset 0)) ∧
      g.plotHigh offset (count - 1) = high a b - 1 ∧ Fits (g.plotHigh offset (count - 1)) := by
  obtain ⟨hlow, hhigh⟩ := h.plot_ends hg
  have hstart := h.start_fits
  rw [← hlow] at hstart
  rw [hcells] at hlow
  obtain ⟨-, hmost⟩ := Int32.fits_toInt (max a b)
  rw [Int32.toInt_max, ← high] at hmost
  have hle : low a b ≤ high a b := by
    unfold low high
    omega
  have hleast := hstart.1
  exact ⟨⟨by omega, hstart⟩, hhigh, by omega, by omega⟩

/-- **Where the plots of an exact fit are.** Let settings with plots and without negative roads be
fitted without overflow to a rectangle that is as long, on both axes, as a number of plots with the
roads between them. The bounds hold just these plots. In every area that accepts the settings the
first plot begins one column below the lowest corner of the rectangle, on both axes, and the last
one ends one column below the highest. -/
theorem fit_exact_ends (s s' : Settings) (ax az bx bz : Int32) (n m : Int) (hn : 1 ≤ n) (hm : 1 ≤ m)
    (hsize : 1 ≤ s.plotSize.toInt) (hroad : 0 ≤ s.roadWidth.toInt)
    (hx : high ax bx - low ax bx + 1 = n * s.pitch - s.roadWidth.toInt)
    (hz : high az bz - low az bz + 1 = m * s.pitch - s.roadWidth.toInt)
    (hfit : fit ax az bx bz s = .ok () s') :
    ∃ last : PlotId, last.x.toInt = n - 1 ∧ last.z.toInt = m - 1 ∧
      s'.minPlot = some ⟨0, 0⟩ ∧ s'.maxPlot = some last ∧
      ∀ world area, Area.ofSettings world s' = .ok area → ∃ g, area.grid = .ok g ∧
        ((g.plotBottom ⟨0, 0⟩).1.toInt = low ax bx - 1 ∧
          (g.plotBottom ⟨0, 0⟩).2.toInt = low az bz - 1) ∧
        (g.plotTop last).1.toInt = high ax bx - 1 ∧ (g.plotTop last).2.toInt = high az bz - 1 := by
  have hpitch : 0 < s.pitch := by
    unfold pitch
    omega
  have hcellsX := cellsBetween_of_length hn hpitch hx
  have hcellsZ := cellsBetween_of_length hm hpitch hz
  obtain ⟨hfits, countX, countZ, offsetX, offsetZ, hX, hZ, rfl⟩ := fit_eq_ok hsize hroad hfit
  refine ⟨⟨countX - 1, countZ - 1⟩, hcellsX ▸ hX.toInt_last, hcellsZ ▸ hZ.toInt_last, rfl, rfl,
    fun world area harea => ?_⟩
  obtain ⟨g, -, hg, -, hmeasures, ⟨rfl, rfl⟩, -⟩ := exists_grid_of_placed hfits harea
  obtain ⟨⟨hlowX, hlowX'⟩, hhighX, hhighX'⟩ := hX.plot_ends_of_length hmeasures hcellsX hx
  obtain ⟨⟨hlowZ, hlowZ'⟩, hhighZ, hhighZ'⟩ := hZ.plot_ends_of_length hmeasures hcellsZ hz
  have hbottom : (g.plotBottom ⟨0, 0⟩).1.toInt = _ ∧ (g.plotBottom ⟨0, 0⟩).2.toInt = _ :=
    Grid.toInt_plotBottom hlowX' hlowZ'
  have htop : (g.plotTop ⟨countX - 1, countZ - 1⟩).1.toInt = _ ∧
      (g.plotTop ⟨countX - 1, countZ - 1⟩).2.toInt = _ :=
    Grid.toInt_plotTop hhighX' hhighZ'
  rw [hlowX, hlowZ] at hbottom
  rw [hhighX, hhighZ] at htop
  exact ⟨g, hg, hbottom, htop⟩

/-- Three plots in a row, corners in any order: bounds of three cells, all one column low. -/
theorem fit_exact_ends_row :
    (high 209 100 - low 209 100 + 1 = 3 * (default : Settings).pitch - 7 ∧
      high 100 131 - low 100 131 + 1 = 1 * (default : Settings).pitch - 7) ∧
      ∃ s' area g, fit 209 100 100 131 default = .ok () s' ∧
        Area.ofSettings "plotworld" s' = .ok area ∧ area.grid = .ok g ∧
        s'.maxPlot = some ⟨2, 0⟩ ∧
        (g.plotBottom ⟨0, 0⟩).1.toInt = 99 ∧ (g.plotTop ⟨2, 0⟩).1.toInt = 208 := by
  obtain ⟨last, hlastX, hlastZ, -, hmax, harea⟩ := fit_exact_ends default _ 209 100 100 131 3 1
    (by decide) (by decide) (by decide) (by decide) (by decide) (by decide) rfl
  cases hmax
  obtain ⟨g, hg, ⟨hbottom, -⟩, htop, -⟩ := harea "plotworld" _ rfl
  exact ⟨by decide, _, _, g, rfl, rfl, hg, rfl, hbottom, htop⟩

/-- The first plot of an exact fit does not begin at the lowest corner. -/
theorem fit_exact_low :
    ∃ s' area g, fit 100 100 209 131 default = .ok () s' ∧
      Area.ofSettings "plotworld" s' = .ok area ∧ area.grid = .ok g ∧
      g.plotBottom ⟨0, 0⟩ = (99, 99) ∧ g.plotTop ⟨2, 0⟩ = (208, 130) :=
  ⟨_, _, _, rfl, rfl, rfl, rfl, rfl⟩

end Settings
end Cadastre
