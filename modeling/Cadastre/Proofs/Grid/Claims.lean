import Cadastre.Proofs.Grid.Contact
/-!
# Cadastre.Proofs.Grid.Claims

**What bounds claim is a rectangle.** Whether an area with bounds claims a column is asked of its
two bands, by the numbers of cells. In the world the claimed columns are those from the first column
of the gap before the least plot to the last column of the gap behind the greatest, on either axis.

A gap counts to the cell before it, so the gap before the least plot has the number of a cell out of
bounds, and the gap behind the greatest plot the number of a cell in bounds. Both are claimed
(`within_gap`), and the starts of cells, which go up with their numbers, turn this into coordinates
(`within_band_iff`).
-/

namespace Cadastre

namespace Grid

variable {g : Grid} {offset min max w : Int32}

/-! ### One axis -/

theorem within_body {n : Int32} :
    within min max (.body n) = true ↔ min.toInt ≤ n.toInt ∧ n.toInt ≤ max.toInt := by
  simp [within, Int32.le_iff_toInt_le]

/-- Gaps are claimed from the one before the least cell on. -/
theorem within_gap {n : Int32} {part : GapPart} :
    within min max (.gap n part) = true ↔ min.toInt ≤ n.toInt + 1 ∧ n.toInt ≤ max.toInt := by
  simp only [within, Bool.and_eq_true, decide_eq_true_eq]
  omega

/-- A band is claimed exactly if its coordinate lies between the start of the least cell and the end
of the gap behind the greatest. -/
theorem within_band_iff (h : 2 ≤ g.period) :
    within min max (g.band offset w) = true ↔
      g.start offset min.toInt ≤ w.toInt ∧
        w.toInt ≤ g.start offset max.toInt + g.period - 1 + g.roadWidth.toInt := by
  have hr := g.roadWidth_nonneg
  have hrp := g.roadWidth_lt_period
  -- Numbers of cells follow from coordinates because no two starts lie less than a period apart.
  have hmax := start_succ g offset max.toInt
  cases hband : g.band offset w with
  | body n =>
      have hw := (band_eq_body_iff h).mp hband
      have hnext := start_succ g offset n.toInt
      unfold plotLow plotHigh at hw
      rw [within_body]
      constructor
      · intro ⟨hlow, hhigh⟩
        have := start_le_start g offset hlow
        have := start_le_start g offset hhigh
        omega
      · intro ⟨hlow, hhigh⟩
        have hleast : min.toInt < n.toInt + 1 := lt_of_start_lt g offset (by omega)
        have hgreatest : n.toInt < max.toInt + 1 := lt_of_start_lt g offset (by omega)
        omega
  | gap n part =>
      obtain ⟨hfirst, hlast, -⟩ := (band_eq_gap_iff h).mp hband
      have hnext := start_succ g offset (n.toInt + 1)
      have hbehind := start_succ g offset (max.toInt + 1)
      rw [within_gap]
      constructor
      · intro ⟨hlow, hhigh⟩
        have := start_le_start g offset hlow
        have := start_le_start g offset (Int.add_le_add_right hhigh 1)
        omega
      · intro ⟨hlow, hhigh⟩
        have hleast : min.toInt < n.toInt + 1 + 1 := lt_of_start_lt g offset (by omega)
        have hgreatest : n.toInt + 1 < max.toInt + 1 + 1 := lt_of_start_lt g offset (by omega)
        omega

/-- Without roads a band is claimed exactly if its cell is, even where the period is one and not all
numbers of cells fit. -/
theorem within_band_iff_of_roadless (h : g.roadWidth.toInt = 0) (hfits : Fits (g.cellAt offset w)) :
    within min max (g.band offset w) = true ↔
      min.toInt ≤ g.cellAt offset w ∧ g.cellAt offset w ≤ max.toInt := by
  have hplace := placeAt_nonneg g offset w
  rw [band_eq, if_pos (by omega), within_body, Int32.toInt_ofInt_of_fits hfits]

end Grid

/-! ### Both axes -/

namespace Area

/-- **The claimed region is a rectangle.** Let an area have bounds and a period of at least two that
fits. Whether it claims a column is answered for every column of the world: it does exactly if on
both axes the column lies between the first column of the gap before the least plot and the last
column of the gap behind the greatest. -/
theorem claimed_rectangle (a : Area) (b : Bounds) (hbounds : a.bounds = some b)
    (hfits : Fits (a.plotSize.toInt + a.roadWidth.toInt))
    (htwo : 2 ≤ a.plotSize.toInt + a.roadWidth.toInt) (x z : Int32) :
    ∃ g claimed, a.grid = .ok g ∧ a.isClaimed x z = .ok claimed ∧
      (claimed = true ↔
        (g.start g.offsetX b.min.x.toInt ≤ x.toInt ∧
          x.toInt ≤ g.start g.offsetX b.max.x.toInt + g.period - 1 + g.roadWidth.toInt) ∧
        g.start g.offsetZ b.min.z.toInt ≤ z.toInt ∧
          z.toInt ≤ g.start g.offsetZ b.max.z.toInt + g.period - 1 + g.roadWidth.toInt) := by
  obtain ⟨g, hg, hsize, hwidth, -, -⟩ := exists_grid hfits
  have h : 2 ≤ g.period := by rw [Grid.period, hsize, hwidth]; exact htwo
  refine ⟨g, g.claims (some b) x z, hg, hbounds ▸ isClaimed_eq_of_grid hg x z, ?_⟩
  simp only [Grid.claims, Bool.and_eq_true, Grid.bandX, Grid.bandZ, Grid.within_band_iff h]

/-- The bounds of two plots side by side. -/
def pair : Bounds := ⟨⟨0, 0⟩, ⟨1, 0⟩, by decide, by decide⟩

/-- The standard area, cut down to two plots. -/
def paired : Area := { standard with bounds := some pair }

/-- The last column of the gap behind the second plot is claimed, the next one is not. -/
theorem claimed_rectangle_rim :
    paired.bounds = some pair ∧ Fits (paired.plotSize.toInt + paired.roadWidth.toInt) ∧
      2 ≤ paired.plotSize.toInt + paired.roadWidth.toInt ∧
      paired.isClaimed 81 (-3) = .ok true ∧ paired.isClaimed 82 (-3) = .ok false := by
  refine ⟨rfl, by decide, by decide, ?_, ?_⟩
  · obtain ⟨g, claimed, hg, hclaimed, hiff⟩ :=
      claimed_rectangle paired pair rfl (by decide) (by decide) 81 (-3)
    cases Except.ok.inj (show Except.ok _ = Except.ok g from hg)
    rw [hclaimed, hiff.mpr (by decide)]
  · obtain ⟨g, claimed, hg, hclaimed, hiff⟩ :=
      claimed_rectangle paired pair rfl (by decide) (by decide) 82 (-3)
    cases Except.ok.inj (show Except.ok _ = Except.ok g from hg)
    rw [hclaimed, Bool.eq_false_iff.mpr (mt hiff.mp (by decide))]

end Area

end Cadastre
