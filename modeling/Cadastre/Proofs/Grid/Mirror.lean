import Cadastre.Proofs.Grid.Step
/-!
# Cadastre.Proofs.Grid.Mirror

**An axis seen from its other end.** Mirror an axis so that the gap before plot 0 keeps its place and
only its first column changes places with its last. Then plot `n` changes places with plot `-1 - n`,
and a place in a gap becomes the place as far from the other end of the gap
(`Mirrors.cellAt_of_gap`).

The bands of coordinates follow (`Mirrors.band_eq`): what was the wall before a road is the wall
behind it. The one exception are gaps of a single column, which are the wall of the plot behind them
from whichever end the axis is seen.
-/

namespace Cadastre

/-! ### Numbers from the other end -/

namespace Int32

/-- The number that changes places with another when the axis is seen from its other end. -/
def mirror (n : Int32) : Int32 := -1 - n

@[simp] theorem mirror_mirror (n : Int32) : mirror (mirror n) = n := by
  unfold mirror
  grind

theorem mirror_add (n m : Int32) : mirror (n + m) = mirror n + -m := by
  unfold mirror
  grind

@[simp] theorem mirror_succ (n : Int32) : mirror (n + 1) + 1 = mirror n := by
  rw [mirror_add, Int32.add_assoc, Int32.add_left_neg, Int32.add_zero]

theorem ofInt_mirror (n : Int) : Int32.ofInt (-1 - n) = mirror (Int32.ofInt n) :=
  Int32.ofInt_sub (-1) n

/-- The mirror image of a 32-bit number is one. -/
theorem toInt_mirror (n : Int32) : (mirror n).toInt = -1 - n.toInt := by
  have hfits : Fits (-1 - n.toInt) := by
    obtain ⟨hlow, hhigh⟩ := fits_toInt n
    constructor <;> omega
  rw [← toInt_ofInt_of_fits hfits, ofInt_mirror, Int32.ofInt_toInt]

theorem mirror_le_iff {n m : Int32} : mirror n ≤ m ↔ mirror m ≤ n := by
  rw [Int32.le_iff_toInt_le, Int32.le_iff_toInt_le, toInt_mirror, toInt_mirror]
  omega

theorem le_mirror_iff {n m : Int32} : n ≤ mirror m ↔ m ≤ mirror n := by
  rw [Int32.le_iff_toInt_le, Int32.le_iff_toInt_le, toInt_mirror, toInt_mirror]
  omega

theorem between_mirror_iff {low n high : Int32} :
    mirror high ≤ n ∧ n ≤ mirror low ↔ low ≤ mirror n ∧ mirror n ≤ high :=
  and_comm.trans (and_congr le_mirror_iff mirror_le_iff)

theorem mirror_le_mirror {n m : Int32} (h : n ≤ m) : mirror m ≤ mirror n := by
  rw [mirror_le_iff, mirror_mirror]
  exact h

end Int32

/-! ### Bands from the other end -/

/-- The part of a gap that lies as far from the other end. -/
def GapPart.mirror : GapPart → GapPart
  | low => high
  | road => road
  | high => low

/-- A band in the mirror: plot `n` is plot `-1 - n` there, and the gap between two plots lies between
the same two. -/
def Band.mirror : Band → Band
  | body n => body (Int32.mirror n)
  | gap n p => gap (Int32.mirror (n + 1)) p.mirror

namespace Spot

/-- A place around a gap, in the mirror. -/
def mirror : Spot → Spot
  | before => after
  | part p => part p.mirror
  | after => before

theorem band_mirror (cell : Int32) (s : Spot) :
    (s.band cell).mirror = s.mirror.band (Int32.mirror (cell + 1)) := by
  cases s with
  | before => exact congrArg Band.body (Int32.mirror_succ cell).symm
  | part p => rfl
  | after => rfl

end Spot

/-! ### Coordinates from the other end -/

namespace Grid

variable {g : Grid} {offset w w' : Int32}

/-- Two coordinates change places when the gap before plot 0 is turned around. -/
def Mirrors (g : Grid) (offset w w' : Int32) : Prop :=
  w.toInt + w'.toInt = g.start offset 0 + (g.start offset 0 + g.roadWidth.toInt - 1)

instance : Decidable (g.Mirrors offset w w') := inferInstanceAs (Decidable (_ = _))

theorem start_neg (g : Grid) (offset : Int32) (cell : Int) :
    g.start offset (-cell) = 2 * g.start offset 0 - g.start offset cell := by
  unfold start
  rw [Int.neg_mul, Int.zero_mul]
  omega

/-- Parts of a gap change places with those as far from its other end. A gap of one column has no
other end. -/
theorem gapPart_mirror {r place : Int} (hr : r ≠ 1) :
    gapPart r (r - 1 - place) = (gapPart r place).mirror := by
  unfold gapPart
  split_ifs <;> first | rfl | omega

namespace Mirrors

/-- In a gap, the place changes with the one as far from the other end of the gap. -/
theorem cellAt_of_gap (h : g.Mirrors offset w w')
    (hgap : g.placeAt offset w < g.roadWidth.toInt) :
    g.cellAt offset w' = -g.cellAt offset w ∧
      g.placeAt offset w' = g.roadWidth.toInt - 1 - g.placeAt offset w := by
  have hw := start_add_placeAt g offset w
  have hstart := start_neg g offset (g.cellAt offset w)
  have h0 := placeAt_nonneg g offset w
  have hrp := g.roadWidth_lt_period
  unfold Mirrors at h
  exact cellAt_eq g offset w' _ _ (by omega) (by omega) (by omega)

/-- In a plot, the place changes with one in the plot as far on the other side. -/
theorem cellAt_of_body (h : g.Mirrors offset w w')
    (hbody : g.roadWidth.toInt ≤ g.placeAt offset w) :
    g.cellAt offset w' = -1 - g.cellAt offset w ∧
      g.placeAt offset w' = g.period - 1 - (g.placeAt offset w - g.roadWidth.toInt) := by
  have hw := start_add_placeAt g offset w
  have hstart := start_neg g offset (g.cellAt offset w + 1)
  have hsucc := start_succ g offset (g.cellAt offset w)
  have hp := placeAt_lt g offset w
  have hr := g.roadWidth_nonneg
  have hcell : -1 - g.cellAt offset w = -(g.cellAt offset w + 1) := by omega
  unfold Mirrors at h
  rw [hcell]
  exact cellAt_eq g offset w' _ _ (by omega) (by omega) (by omega)

/-- Where gaps are more than a single column, the bands of two coordinates that change places are
each other's mirror images. -/
theorem band_eq (h : g.Mirrors offset w w') (hr : g.roadWidth.toInt ≠ 1) :
    g.band offset w' = (g.band offset w).mirror := by
  rw [Grid.band_eq, Grid.band_eq]
  by_cases hbody : g.roadWidth.toInt ≤ g.placeAt offset w
  · obtain ⟨hcell, hplace⟩ := h.cellAt_of_body hbody
    have hp := placeAt_lt g offset w
    rw [if_pos hbody, if_pos (by omega), hcell, Int32.ofInt_mirror]
    rfl
  · obtain ⟨hcell, hplace⟩ := h.cellAt_of_gap (Int.not_le.mp hbody)
    have h0 := placeAt_nonneg g offset w
    have hnext : Int32.ofInt (g.cellAt offset w - 1) + 1 = Int32.ofInt (g.cellAt offset w) := by
      rw [Int32.ofInt_sub]
      exact Int32.sub_add_cancel _ _
    have hprevious : -g.cellAt offset w - 1 = -1 - g.cellAt offset w := by omega
    rw [if_neg hbody, if_neg (by omega), hcell, hplace, gapPart_mirror hr, hprevious,
      Int32.ofInt_mirror, ← hnext]
    rfl

end Mirrors

end Grid

end Cadastre
