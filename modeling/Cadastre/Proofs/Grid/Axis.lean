import Cadastre.Arithmetic
import Cadastre.Grid
import Mathlib.Tactic.Linarith
/-!
# Cadastre.Proofs.Grid.Axis

**One axis of a grid, exactly.** Where the cells of a grid begin is a matter of unbounded integers
(`Grid.start`). With a period of at least two, every cell that a coordinate can fall in has a 32-bit
number, so the band of a coordinate says exactly where it lies: `band_eq_body_iff` and
`band_eq_gap_iff` are the two facts that everything else about bands follows from.

A period of one is the only case in which a cell's number may not fit. Such a grid has no gaps.
-/

namespace Cadastre.Grid

variable (g : Grid) (offset : Int32)

/-- The first coordinate of a cell in unbounded integers: that of the gap before its plot. -/
def start (cell : Int) : Int :=
  cell * g.period + offset.toInt - g.roadWidth.toInt / 2

/-- The first coordinate of a cell's plot in unbounded integers. -/
def plotLow (cell : Int32) : Int := g.start offset cell.toInt + g.roadWidth.toInt

/-- The last coordinate of a cell's plot in unbounded integers. -/
def plotHigh (cell : Int32) : Int := g.start offset cell.toInt + g.period - 1

/-- The number of the cell that a coordinate lies in, in unbounded integers. -/
def cellAt (w : Int32) : Int :=
  (w.toInt - offset.toInt + g.roadWidth.toInt / 2) / g.period

/-- How far a coordinate lies behind the start of its cell. -/
def placeAt (w : Int32) : Int :=
  (w.toInt - offset.toInt + g.roadWidth.toInt / 2) % g.period

variable {g offset}

/-! ### Cells in unbounded integers -/

theorem start_succ (g : Grid) (offset : Int32) (cell : Int) :
    g.start offset (cell + 1) = g.start offset cell + g.period := by
  unfold start
  rw [Int.add_mul]
  omega

theorem start_le_start (g : Grid) (offset : Int32) {m n : Int} (h : m ≤ n) :
    g.start offset m ≤ g.start offset n := by
  have := Int.mul_le_mul_of_nonneg_right h g.period_pos.le
  unfold start
  omega

/-- A cell that begins before another has the smaller number. -/
theorem lt_of_start_lt (g : Grid) (offset : Int32) {m n : Int}
    (h : g.start offset m < g.start offset n) : m < n := by
  by_contra hle
  have := start_le_start g offset (Int.not_lt.mp hle)
  omega

theorem start_add_placeAt (g : Grid) (offset w : Int32) :
    g.start offset (g.cellAt offset w) + g.placeAt offset w = w.toInt := by
  have h := Int.ediv_mul_add_emod (w.toInt - offset.toInt + g.roadWidth.toInt / 2) g.period
  unfold start cellAt placeAt
  omega

theorem placeAt_nonneg (g : Grid) (offset w : Int32) : 0 ≤ g.placeAt offset w :=
  Int.emod_nonneg _ g.period_pos.ne'

theorem placeAt_lt (g : Grid) (offset w : Int32) : g.placeAt offset w < g.period :=
  Int.emod_lt_of_pos _ g.period_pos

/-- A coordinate lies in one cell only, at one place. -/
theorem cellAt_eq (g : Grid) (offset w : Int32) (cell place : Int)
    (hw : g.start offset cell + place = w.toInt) (h0 : 0 ≤ place) (hp : place < g.period) :
    g.cellAt offset w = cell ∧ g.placeAt offset w = place := by
  have e : w.toInt - offset.toInt + g.roadWidth.toInt / 2 = place + cell * g.period := by
    unfold start at hw
    omega
  unfold cellAt placeAt
  rw [e, Int.add_mul_ediv_right _ _ g.period_pos.ne', Int.ediv_eq_zero_of_lt h0 hp,
    Int.add_mul_emod_self_right, Int.emod_eq_of_lt h0 hp]
  exact ⟨Int.zero_add cell, rfl⟩

/-! ### Cells are 32-bit numbers -/

theorem roadWidth_lt_period (g : Grid) : g.roadWidth.toInt < g.period := by
  have := g.plotSize_pos
  unfold period
  omega

/-- Where there are roads, a period has two columns at least. -/
theorem two_le_period (h : g.roadWidth.toInt ≠ 0) : 2 ≤ g.period := by
  have := g.plotSize_pos
  have := g.roadWidth_nonneg
  unfold period
  omega

/-- With a period of at least two, the number of every coordinate's cell fits. -/
theorem cellAt_fits (h : 2 ≤ g.period) (offset w : Int32) : Fits (g.cellAt offset w) := by
  obtain ⟨wl, wu⟩ := Int32.fits_toInt w
  obtain ⟨ol, ou⟩ := Int32.fits_toInt offset
  have hr := g.roadWidth_nonneg
  have hrp := g.roadWidth_lt_period
  constructor
  · exact Int.le_ediv_of_mul_le g.period_pos (by omega)
  · exact Int.lt_add_one_iff.mp (Int.ediv_lt_of_lt_mul g.period_pos (by omega))

/-- In a gap the number of the cell before fits too. -/
theorem cellAt_sub_one_fits (h : 2 ≤ g.period) {w : Int32}
    (hgap : g.placeAt offset w < g.roadWidth.toInt) : Fits (g.cellAt offset w - 1) := by
  obtain ⟨cl, cu⟩ := cellAt_fits h offset w
  refine ⟨?_, by omega⟩
  -- The least cell of all begins below the least coordinate by more than a gap is wide.
  by_contra hlow
  have hcell : g.cellAt offset w = -2147483648 := by omega
  have hw := start_add_placeAt g offset w
  have hps := g.plotSize_pos
  obtain ⟨wl, wu⟩ := Int32.fits_toInt w
  obtain ⟨ol, ou⟩ := Int32.fits_toInt offset
  rw [hcell] at hw
  unfold start period at hw
  have h0 := placeAt_nonneg g offset w
  omega

/-! ### The band of a coordinate -/

theorem band_eq (w : Int32) :
    g.band offset w =
      if g.roadWidth.toInt ≤ g.placeAt offset w then .body (Int32.ofInt (g.cellAt offset w))
      else .gap (Int32.ofInt (g.cellAt offset w - 1))
        (gapPart g.roadWidth.toInt (g.placeAt offset w)) := rfl

/-- Without roads there are no gaps. -/
theorem exists_band_eq_body (h : g.roadWidth.toInt = 0) (offset w : Int32) :
    ∃ n, g.band offset w = .body n := by
  have hplace := placeAt_nonneg g offset w
  rw [band_eq, if_pos (by omega)]
  exact ⟨_, rfl⟩

/-- A coordinate is in the plot of a cell exactly if it lies between the plot's ends. -/
theorem band_eq_body_iff (h : 2 ≤ g.period) {w n : Int32} :
    g.band offset w = .body n ↔
      g.plotLow offset n ≤ w.toInt ∧ w.toInt ≤ g.plotHigh offset n := by
  unfold plotLow plotHigh
  constructor
  · intro hband
    rw [band_eq] at hband
    split at hband
    case isFalse => cases hband
    case isTrue hplace =>
        cases hband
        rw [Int32.toInt_ofInt_of_fits (cellAt_fits h offset w)]
        have hw := start_add_placeAt g offset w
        have hlt := placeAt_lt g offset w
        omega
  · rintro ⟨hlow, hhigh⟩
    have hr := g.roadWidth_nonneg
    obtain ⟨hcell, hplace⟩ := cellAt_eq g offset w n.toInt
      (w.toInt - g.start offset n.toInt) (by omega) (by omega) (by omega)
    rw [band_eq, hcell, hplace, if_pos (by omega), Int32.ofInt_toInt]

/-- A coordinate is in the gap after a cell exactly if it lies at the start of the next cell, and
its place there decides the part of the gap. -/
theorem band_eq_gap_iff (h : 2 ≤ g.period) {w n : Int32} {part : GapPart} :
    g.band offset w = .gap n part ↔
      g.start offset (n.toInt + 1) ≤ w.toInt ∧
        w.toInt < g.start offset (n.toInt + 1) + g.roadWidth.toInt ∧
        gapPart g.roadWidth.toInt (w.toInt - g.start offset (n.toInt + 1)) = part := by
  constructor
  · intro hband
    rw [band_eq] at hband
    split at hband
    case isTrue => cases hband
    case isFalse hplace =>
        cases hband
        rw [Int32.toInt_ofInt_of_fits (cellAt_sub_one_fits h (Int.not_le.mp hplace)),
          Int.sub_add_cancel]
        have hw := start_add_placeAt g offset w
        have h0 := placeAt_nonneg g offset w
        refine ⟨by omega, by omega, ?_⟩
        congr 1
        omega
  · rintro ⟨hlow, hhigh, rfl⟩
    have hrp := g.roadWidth_lt_period
    obtain ⟨hcell, hplace⟩ := cellAt_eq g offset w (n.toInt + 1)
      (w.toInt - g.start offset (n.toInt + 1)) (by omega) (by omega) (by omega)
    rw [band_eq, hcell, hplace, if_neg (by omega), Int.add_sub_cancel, Int32.ofInt_toInt]

/-- No cell number of a band is cut short. -/
theorem cell_band (h : 2 ≤ g.period) (offset w : Int32) :
    (g.band offset w).cell.toInt =
      if g.roadWidth.toInt ≤ g.placeAt offset w then g.cellAt offset w
      else g.cellAt offset w - 1 := by
  rw [band_eq]
  split
  · exact Int32.toInt_ofInt_of_fits (cellAt_fits h offset w)
  case isFalse hplace =>
      exact Int32.toInt_ofInt_of_fits (cellAt_sub_one_fits h (Int.not_le.mp hplace))

/-- The cell after a gap has a 32-bit number. -/
theorem fits_succ_of_gap (h : 2 ≤ g.period) {w n : Int32} {part : GapPart}
    (hband : g.band offset w = .gap n part) : Fits (n.toInt + 1) := by
  have hcell := cell_band h offset w
  rw [hband, Band.cell] at hcell
  split at hcell
  case isTrue hplace => rw [band_eq, if_pos hplace] at hband; cases hband
  case isFalse =>
      rw [hcell, Int.sub_add_cancel]
      exact cellAt_fits h offset w

/-- The cell of a band tells where its coordinate lies: from the cell's plot up to the end of the
gap behind it. -/
theorem start_cell_le (h : 2 ≤ g.period) (offset w : Int32) :
    g.start offset (g.band offset w).cell.toInt + g.roadWidth.toInt ≤ w.toInt ∧
      w.toInt < g.start offset ((g.band offset w).cell.toInt + 1) + g.roadWidth.toInt := by
  have hr := g.roadWidth_nonneg
  have hrp := g.roadWidth_lt_period
  cases hband : g.band offset w with
  | body n =>
      have := (band_eq_body_iff h).mp hband
      simp only [Band.cell, start_succ, plotLow, plotHigh] at this ⊢
      omega
  | gap n part =>
      have := (band_eq_gap_iff h).mp hband
      simp only [Band.cell, start_succ] at this ⊢
      omega

/-- Cells go up with the coordinate. -/
theorem cell_le_cell (h : 2 ≤ g.period) (offset : Int32) {v w : Int32} (hvw : v.toInt ≤ w.toInt) :
    (g.band offset v).cell.toInt ≤ (g.band offset w).cell.toInt := by
  have hv := (start_cell_le h offset v).1
  have hw := (start_cell_le h offset w).2
  exact Int.lt_add_one_iff.mp (lt_of_start_lt g offset (by omega))

end Cadastre.Grid
