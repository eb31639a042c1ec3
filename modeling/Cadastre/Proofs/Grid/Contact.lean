import Cadastre.Proofs.Grid.Axis
/-!
# Cadastre.Proofs.Grid.Contact

**The plot that a coordinate is in or touches**, on one axis and then on both.

A coordinate inside a plot, or next to one where its wall stands, is in *contact* with that plot's
cell at a distance of 0, 1 or -1 (`Band.contact`). A coordinate in the road is in contact with
nobody. The ground of a column is then read off its two contacts (`Ground.ofBands_eq`), and the
contacts are exact distances to the plots (`Grid.contact_eq_some_iff`).
-/

namespace Cadastre

/-! ### Contacts -/

/-- The cell whose plot or wall a band belongs to, and the distance from that plot: positive behind
it and negative before it. -/
def Band.contact : Band → Option (Int32 × Int)
  | body cell => some (cell, 0)
  | gap _ .road => none
  | gap previous .low => some (previous, 1)
  | gap previous .high => some (previous + 1, -1)

/-- A band whose following cell has a 32-bit number, if it is a gap. -/
def Band.Sound : Band → Prop
  | body _ => True
  | gap previous _ => Fits (previous.toInt + 1)

/-- The part of a wall at a distance from its plot on either axis, not both of them zero. -/
def Segment.at (dx dz : Int) : Segment :=
  let facingX : Direction := if 0 < dx then .east else .west
  let facingZ : Direction := if 0 < dz then .south else .north
  if dz = 0 then .edge facingX else if dx = 0 then .edge facingZ else .corner facingX facingZ

/-- The ground at a distance from a plot on either axis. -/
def Ground.at (id : PlotId) (dx dz : Int) : Ground :=
  if dx = 0 ∧ dz = 0 then .plot id else .wall id (.at dx dz)

namespace Ground

theorem wallX_high {n : Int32} (h : Fits (n.toInt + 1)) : wallX n .high = .ok (n + 1, .west) := by
  have : Checked.add n 1 = .ok (n + 1) := exact_eq_ok_iff.mpr (Int32.toInt_add_of_fits h)
  simp only [wallX, this]
  rfl

theorem wallZ_high {n : Int32} (h : Fits (n.toInt + 1)) : wallZ n .high = .ok (n + 1, .north) := by
  have : Checked.add n 1 = .ok (n + 1) := exact_eq_ok_iff.mpr (Int32.toInt_add_of_fits h)
  simp only [wallZ, this]
  rfl

/-- The ground of two bands, from their contacts. No band of a grid with a period of at least two
makes this fail. -/
theorem ofBands_eq {bx bz : Band} (hx : bx.Sound) (hz : bz.Sound) :
    ofBands bx bz = .ok (match bx.contact, bz.contact with
      | some (x, dx), some (z, dz) => .at ⟨x, z⟩ dx dz
      | _, _ => .road) := by
  -- Either axis has four kinds of bands. Only a high wall computes a number, that of the cell
  -- behind it.
  rcases bx with x | ⟨x, _ | _ | _⟩ <;> rcases bz with z | ⟨z, _ | _ | _⟩ <;>
    simp only [Band.Sound] at hx hz <;>
    simp only [ofBands, Band.contact, wallX_high, wallZ_high, hx, hz] <;> rfl

end Ground

namespace Grid

variable {g : Grid} {offset : Int32}

/-- Every band of a grid with a period of at least two is sound. -/
theorem band_sound (h : 2 ≤ g.period) (w : Int32) : (g.band offset w).Sound := by
  cases hband : g.band offset w with
  | body n => trivial
  | gap n part => exact fits_succ_of_gap h hband

/-- Every band of every grid is sound: where a period is a single column there are no gaps. -/
theorem sound_band (g : Grid) (offset w : Int32) : (g.band offset w).Sound := by
  by_cases hwidth : g.roadWidth.toInt = 0
  · obtain ⟨n, hband⟩ := exists_band_eq_body hwidth offset w
    rw [hband]
    trivial
  · exact band_sound (two_le_period hwidth) w

/-! ### Distances -/

/-- How far a coordinate lies from the plot of a cell: negative before the plot, zero inside it and
positive behind it. -/
def away (g : Grid) (offset cell w : Int32) : Int :=
  if w.toInt < g.plotLow offset cell then w.toInt - g.plotLow offset cell
  else if g.plotHigh offset cell < w.toInt then w.toInt - g.plotHigh offset cell
  else 0

theorem away_eq_zero_iff {cell w : Int32} :
    g.away offset cell w = 0 ↔
      g.plotLow offset cell ≤ w.toInt ∧ w.toInt ≤ g.plotHigh offset cell := by
  unfold away
  split
  · omega
  · split <;> omega

theorem away_eq_one_iff {cell w : Int32} :
    g.away offset cell w = 1 ↔ w.toInt = g.start offset (cell.toInt + 1) := by
  have := g.roadWidth_lt_period
  rw [start_succ]
  unfold away plotLow plotHigh
  split
  · omega
  · split <;> omega

theorem away_eq_neg_one_iff {cell w : Int32} :
    g.away offset cell w = -1 ↔
      w.toInt = g.start offset cell.toInt + g.roadWidth.toInt - 1 := by
  have := g.roadWidth_lt_period
  unfold away plotLow plotHigh
  split
  · omega
  · split <;> omega

theorem gapPart_eq_low_iff {r place : Int} : gapPart r place = .low ↔ place = 0 ∧ r ≠ 1 := by
  unfold gapPart
  split_ifs <;> simp <;> omega

theorem gapPart_eq_high_iff {r place : Int} : gapPart r place = .high ↔ place = r - 1 := by
  unfold gapPart
  split_ifs <;> simp <;> omega

/-- The first column of a gap belongs to the wall of the plot before, if the gap has a second one.
-/
theorem band_eq_low_iff (h : 2 ≤ g.period) {w n : Int32} :
    g.band offset w = .gap n .low ↔ g.away offset n w = 1 ∧ 2 ≤ g.roadWidth.toInt := by
  rw [band_eq_gap_iff h, gapPart_eq_low_iff, away_eq_one_iff]
  have := g.roadWidth_nonneg
  omega

/-- The last column of a gap belongs to the wall of the plot after. -/
theorem band_eq_high_iff (h : 2 ≤ g.period) {w cell : Int32} :
    (∃ n, g.band offset w = .gap n .high ∧ n + 1 = cell) ↔
      g.away offset cell w = -1 ∧ 1 ≤ g.roadWidth.toInt := by
  have hrp := g.roadWidth_lt_period
  rw [away_eq_neg_one_iff]
  constructor
  · rintro ⟨n, hband, rfl⟩
    rw [Int32.toInt_add_of_fits (fits_succ_of_gap h hband)]
    have := (band_eq_gap_iff h).mp hband
    rw [gapPart_eq_high_iff] at this
    simp only [Int32.toInt_one]
    omega
  · rintro ⟨hw, hr⟩
    obtain ⟨hcell, hplace⟩ := cellAt_eq g offset w cell.toInt (g.roadWidth.toInt - 1)
      (by omega) (by omega) (by omega)
    have hfits : Fits (cell.toInt - 1) := hcell ▸ cellAt_sub_one_fits h (by omega)
    refine ⟨Int32.ofInt (cell.toInt - 1), ?_, ?_⟩
    · rw [band_eq_gap_iff h, gapPart_eq_high_iff, Int32.toInt_ofInt_of_fits hfits,
        Int.sub_add_cancel]
      omega
    · rw [Int32.ofInt_sub, Int32.ofInt_toInt]
      exact Int32.sub_add_cancel cell 1

/-- A coordinate is in the plot of a cell or where the plot's wall stands. A plot has a wall on
every side where roads have two columns or more, and only before it where they have a single column.
-/
def Touches (g : Grid) (offset cell w : Int32) : Prop :=
  let d := g.away offset cell w
  d = 0 ∨ d = -1 ∧ 1 ≤ g.roadWidth.toInt ∨ d = 1 ∧ 2 ≤ g.roadWidth.toInt

/-- The contact of a coordinate is with the cell that it touches, at its distance from the plot. -/
theorem contact_eq_some_iff (h : 2 ≤ g.period) {w cell : Int32} {d : Int} :
    (g.band offset w).contact = some (cell, d) ↔
      d = g.away offset cell w ∧ g.Touches offset cell w := by
  unfold Touches
  dsimp only
  constructor
  · intro hc
    cases hband : g.band offset w with
    | body n =>
        rw [hband] at hc
        cases hc
        have := away_eq_zero_iff.mpr ((band_eq_body_iff h).mp hband)
        omega
    | gap n part =>
        -- The road is in contact with nobody, and a wall only with the cell on its own side.
        rw [hband] at hc
        cases part with
        | road => cases hc
        | low =>
            cases hc
            have := (band_eq_low_iff h).mp hband
            omega
        | high =>
            cases hc
            have := (band_eq_high_iff h).mp ⟨n, hband, rfl⟩
            omega
  · rintro ⟨rfl, hzero | ⟨hbefore, hr⟩ | ⟨hbehind, hr⟩⟩
    · rw [(band_eq_body_iff h).mpr (away_eq_zero_iff.mp hzero), hzero]
      rfl
    · obtain ⟨n, hband, rfl⟩ := (band_eq_high_iff h).mpr ⟨hbefore, hr⟩
      rw [hband, hbefore]
      rfl
    · rw [(band_eq_low_iff h).mpr ⟨hbehind, hr⟩, hbehind]
      rfl

/-- The ground of a column whose coordinates touch the cells of a plot. -/
theorem ground_of_touches (h : 2 ≤ g.period) {id : PlotId} {x z : Int32}
    (hx : g.Touches g.offsetX id.x x) (hz : g.Touches g.offsetZ id.z z) :
    g.ground x z = .ok (.at id (g.away g.offsetX id.x x) (g.away g.offsetZ id.z z)) := by
  rw [ground, bandX, bandZ, Ground.ofBands_eq (band_sound h x) (band_sound h z),
    (contact_eq_some_iff h).mpr ⟨rfl, hx⟩, (contact_eq_some_iff h).mpr ⟨rfl, hz⟩]

/-- Either both coordinates of a column touch a cell, or the column is road. -/
theorem ground_cases (h : 2 ≤ g.period) (x z : Int32) :
    (∃ id : PlotId, g.Touches g.offsetX id.x x ∧ g.Touches g.offsetZ id.z z) ∨
      (∀ id : PlotId, ¬(g.Touches g.offsetX id.x x ∧ g.Touches g.offsetZ id.z z)) ∧
        g.ground x z = .ok .road := by
  rw [ground, bandX, bandZ, Ground.ofBands_eq (band_sound h x) (band_sound h z)]
  cases hx : (g.band g.offsetX x).contact with
  | none =>
      refine .inr ⟨fun id ht => ?_, rfl⟩
      rw [(contact_eq_some_iff h).mpr ⟨rfl, ht.1⟩] at hx
      cases hx
  | some cx =>
      cases hz : (g.band g.offsetZ z).contact with
      | none =>
          refine .inr ⟨fun id ht => ?_, rfl⟩
          rw [(contact_eq_some_iff h).mpr ⟨rfl, ht.2⟩] at hz
          cases hz
      | some cz =>
          exact .inl ⟨⟨cx.1, cz.1⟩, ((contact_eq_some_iff h).mp hx).2,
            ((contact_eq_some_iff h).mp hz).2⟩

end Grid

end Cadastre
