import Cadastre.Proofs.Grid.Contact
/-!
# Cadastre.Proofs.Grid.Step

**One step along an axis.** From a coordinate to the next the band stays the same, or both bands lie
around one gap: in the plot before it, in one of its parts, or in the plot behind it (`Spot`). So
whatever two neighbouring columns have to do with each other is decided around a single gap of each
axis (`Grid.beside_cases`).
-/

namespace Cadastre

/-- A place on an axis around the gap after a cell. -/
inductive Spot
  /-- In the plot before the gap. -/
  | before
  | part (p : GapPart)
  /-- In the plot behind the gap. -/
  | after
  deriving DecidableEq

namespace Spot

/-- The band of a place around the gap after a cell. -/
def band (cell : Int32) : Spot → Band
  | before => .body cell
  | part p => .gap cell p
  | after => .body (cell + 1)

/-- A place and a different one that may follow it where roads have `r` columns. A gap of one column
is a high wall only, one of two columns has no road. -/
inductive Next (r : Int) : Spot → Spot → Prop
  | enterLow (h : 2 ≤ r) : Next r before (part .low)
  | enterHigh (h : r = 1) : Next r before (part .high)
  | lowRoad (h : 3 ≤ r) : Next r (part .low) (part .road)
  | lowHigh (h : r = 2) : Next r (part .low) (part .high)
  | roadHigh (h : 3 ≤ r) : Next r (part .road) (part .high)
  | leave : Next r (part .high) after

end Spot

/-- Every band is that of some place around a gap. -/
theorem Band.exists_spot (b : Band) : ∃ cell s, b = Spot.band cell s := by
  cases b with
  | body n => exact ⟨n, .before, rfl⟩
  | gap n p => exact ⟨n, .part p, rfl⟩

namespace Grid

variable {g : Grid} {offset : Int32}

theorem gapPart_eq_road_iff {r place : Int} :
    gapPart r place = .road ↔ place ≠ 0 ∧ place ≠ r - 1 := by
  unfold gapPart
  split_ifs <;> simp <;> omega

/-- The parts of a gap follow each other from low to high. -/
theorem gapPart_step (r place : Int) (h0 : 0 ≤ place) (hlt : place + 1 < r) :
    gapPart r place = gapPart r (place + 1) ∨
      Spot.Next r (.part (gapPart r place)) (.part (gapPart r (place + 1))) := by
  by_cases hfirst : place = 0
  · have hlow : gapPart r place = .low := by rw [gapPart_eq_low_iff]; omega
    rw [hlow]
    by_cases hlast : place + 1 = r - 1
    · rw [gapPart_eq_high_iff.mpr hlast]
      exact .inr (.lowHigh (by omega))
    · have hroad : gapPart r (place + 1) = .road := by rw [gapPart_eq_road_iff]; omega
      rw [hroad]
      exact .inr (.lowRoad (by omega))
  · have hroad : gapPart r place = .road := by rw [gapPart_eq_road_iff]; omega
    rw [hroad]
    by_cases hlast : place + 1 = r - 1
    · rw [gapPart_eq_high_iff.mpr hlast]
      exact .inr (.roadHigh (by omega))
    · have hroad' : gapPart r (place + 1) = .road := by rw [gapPart_eq_road_iff]; omega
      exact .inl hroad'.symm

/-- The first part of a gap is a wall. -/
theorem before_next_gapPart {r : Int} (h : 1 ≤ r) : Spot.Next r .before (.part (gapPart r 0)) := by
  by_cases hone : r = 1
  · rw [gapPart_eq_high_iff.mpr (by omega)]
    exact .enterHigh hone
  · rw [gapPart_eq_low_iff.mpr ⟨rfl, hone⟩]
    exact .enterLow (by omega)

/-- A road has a wall on either side. -/
theorem three_le_of_road (h : 2 ≤ g.period) {w n : Int32} (hw : g.band offset w = .gap n .road) :
    3 ≤ g.roadWidth.toInt := by
  have hgap := (band_eq_gap_iff h).mp hw
  rw [gapPart_eq_road_iff] at hgap
  omega

/-- **One step along an axis.** Where there are roads, two coordinates next to each other have the
same band or lie around one gap. -/
theorem band_step (h : 2 ≤ g.period) (hr : 1 ≤ g.roadWidth.toInt) {v w : Int32}
    (hvw : w.toInt = v.toInt + 1) :
    g.band offset v = g.band offset w ∨
      ∃ n s t, Fits (n.toInt + 1) ∧ g.band offset v = Spot.band n s ∧
        g.band offset w = Spot.band n t ∧ s.Next g.roadWidth.toInt t := by
  cases hv : g.band offset v with
  | body n =>
      have hbody := (band_eq_body_iff h).mp hv
      by_cases hin : w.toInt ≤ g.plotHigh offset n
      · exact .inl ((band_eq_body_iff h).mpr ⟨by omega, hin⟩).symm
      · -- The coordinate before was the last of the plot, so this one begins the gap.
        have hstart := start_succ g offset n.toInt
        have hw : g.band offset w = .gap n (gapPart g.roadWidth.toInt 0) := by
          unfold plotHigh at hbody hin
          rw [band_eq_gap_iff h]
          refine ⟨by omega, by omega, ?_⟩
          congr 1
          omega
        exact .inr ⟨n, .before, .part _, fits_succ_of_gap h hw, rfl, hw, before_next_gapPart hr⟩
  | gap n p =>
      obtain ⟨hlow, hhigh, rfl⟩ := (band_eq_gap_iff h).mp hv
      have hfits := fits_succ_of_gap h hv
      have hrp := g.roadWidth_lt_period
      by_cases hin : w.toInt < g.start offset (n.toInt + 1) + g.roadWidth.toInt
      · have hw : g.band offset w =
            .gap n (gapPart g.roadWidth.toInt (v.toInt - g.start offset (n.toInt + 1) + 1)) := by
          rw [band_eq_gap_iff h]
          refine ⟨by omega, hin, ?_⟩
          congr 1
          omega
        rw [hw]
        rcases gapPart_step g.roadWidth.toInt (v.toInt - g.start offset (n.toInt + 1))
          (by omega) (by omega) with heq | hnext
        · exact .inl (by rw [← heq])
        · exact .inr ⟨n, .part _, .part _, hfits, rfl, rfl, hnext⟩
      · -- The gap ends here, so the coordinate before was its last one.
        have hpart :
            gapPart g.roadWidth.toInt (v.toInt - g.start offset (n.toInt + 1)) = .high := by
          rw [gapPart_eq_high_iff]
          omega
        have hw : g.band offset w = .body (n + 1) := by
          rw [band_eq_body_iff h]
          unfold plotLow plotHigh
          rw [Int32.toInt_add_of_fits hfits, Int32.toInt_one]
          omega
        rw [hpart, hw]
        exact .inr ⟨n, .part .high, .after, hfits, rfl, rfl, .leave⟩

/-- One step along an axis in either direction. -/
theorem band_beside (h : 2 ≤ g.period) (hr : 1 ≤ g.roadWidth.toInt) {v w : Int32}
    (hvw : (v.toInt - w.toInt).natAbs = 1) :
    g.band offset v = g.band offset w ∨
      ∃ n s t, Fits (n.toInt + 1) ∧ g.band offset v = Spot.band n s ∧
        g.band offset w = Spot.band n t ∧
        (s.Next g.roadWidth.toInt t ∨ t.Next g.roadWidth.toInt s) := by
  have hcases : w.toInt = v.toInt + 1 ∨ v.toInt = w.toInt + 1 := by omega
  rcases hcases with hup | hdown
  · rcases band_step h hr hup with heq | ⟨n, s, t, hfits, hs, ht, hnext⟩
    · exact .inl heq
    · exact .inr ⟨n, s, t, hfits, hs, ht, .inl hnext⟩
  · rcases band_step h hr hdown with heq | ⟨n, s, t, hfits, hs, ht, hnext⟩
    · exact .inl heq.symm
    · exact .inr ⟨n, t, s, hfits, ht, hs, .inr hnext⟩

end Grid

/-! ### Neighbouring columns -/

/-- Two columns of the world share an edge. -/
def Beside (x z x' z' : Int32) : Prop :=
  (x.toInt - x'.toInt).natAbs + (z.toInt - z'.toInt).natAbs = 1

instance (x z x' z' : Int32) : Decidable (Beside x z x' z') := inferInstanceAs (Decidable (_ = _))

/-- **Neighbouring columns.** Two columns that share an edge have the same bands, or lie around one
crossing a step apart. -/
theorem Grid.beside_cases {g : Grid} (h : 2 ≤ g.period) (hr : 1 ≤ g.roadWidth.toInt)
    {x z x' z' : Int32} (hadj : Beside x z x' z') :
    g.bandX x = g.bandX x' ∧ g.bandZ z = g.bandZ z' ∨
      ∃ n k s s' t t', g.bandX x = Spot.band n s ∧ g.bandX x' = Spot.band n s' ∧
        g.bandZ z = Spot.band k t ∧ g.bandZ z' = Spot.band k t' ∧
        (t = t' ∧ (s.Next g.roadWidth.toInt s' ∨ s'.Next g.roadWidth.toInt s) ∨
          s = s' ∧ (t.Next g.roadWidth.toInt t' ∨ t'.Next g.roadWidth.toInt t)) := by
  unfold Beside at hadj
  by_cases hzz : z = z'
  · subst hzz
    have hstep : (x.toInt - x'.toInt).natAbs = 1 := by omega
    obtain ⟨k, t, hz⟩ := (g.bandZ z).exists_spot
    rcases band_beside h hr hstep with heq | ⟨n, s, s', -, hx, hx', hnext⟩
    · exact .inl ⟨heq, rfl⟩
    · exact .inr ⟨n, k, s, s', t, t, hx, hx', hz, hz, .inl ⟨rfl, hnext⟩⟩
  · have hdiff : z.toInt ≠ z'.toInt := fun heq => hzz (Int32.toInt_inj.mp heq)
    have hxx : x = x' := by
      rw [← Int32.toInt_inj]
      omega
    subst hxx
    have hstep : (z.toInt - z'.toInt).natAbs = 1 := by omega
    obtain ⟨n, s, hx⟩ := (g.bandX x).exists_spot
    rcases band_beside h hr hstep with heq | ⟨k, t, t', -, hz, hz', hnext⟩
    · exact .inl ⟨rfl, heq⟩
    · exact .inr ⟨n, k, s, s, t, t', hx, hx, hz, hz', .inr ⟨rfl, hnext⟩⟩

end Cadastre
