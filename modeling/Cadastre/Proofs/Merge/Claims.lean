import Cadastre.Proofs.Grid.Claims
import Cadastre.Proofs.Merge.Fusion
import Cadastre.Proofs.Merge.Isolation
import Cadastre.Proofs.Merge.Nearby
/-!
# Cadastre.Proofs.Merge.Claims

**Plot ground is claimed exactly if its plot lies in bounds.** Bounds are asked twice, in two ways:
an area claims a column by the cells of its two bands, and it holds a plot by the plot's own number,
which for a column between plots is chosen by the merges. The two answers agree on all plot ground.

Inside a plot both look at the same cell. Ground that merging opened between plots belongs to a plot
that is merged with a neighbour, so the plot lies in bounds (`Ground.plot_cases`); and a gap within
reach of a cell in bounds is claimed (`Grid.within_of_mem_reach`).
-/

namespace Cadastre

variable {merged : PlotId → Direction → Bool} {id : PlotId}

/-! ### Ground that merging opened -/

/-- Plot ground where two gaps cross belongs to a plot that is merged with a neighbour. -/
theorem Crossing.exists_merged_of_ground_eq_plot {k : Crossing} {p q : GapPart}
    (h : k.ground merged p q = .plot id) : ∃ d, merged id d = true := by
  unfold ground at h
  by_cases hfull : k.isFull merged = true
  · rw [if_pos hfull] at h
    cases h
    simp only [isFull, Bool.and_eq_true] at hfull
    exact ⟨.east, hfull.1.1.1⟩
  · rw [if_neg hfull] at h
    cases p <;> cases q <;> simp only at h
    case low.low | high.low | low.high | high.high =>
        obtain ⟨rfl, hx, -⟩ := corner_eq_plot h
        exact ⟨_, hx⟩
    case road.low | road.high | low.road | high.road =>
        obtain ⟨rfl, hfacing⟩ := line_eq_plot h
        exact ⟨_, hfacing⟩
    case road.road => cases h

/-- **Plot ground** lies inside its plot, or merging opened it: then its plot is within reach on
both axes and merged with a neighbour. -/
theorem Ground.plot_cases {bx bz : Band} (hx : bx.Sound) (hz : bz.Sound)
    (h : ofBandsMerged merged bx bz = .ok (.plot id)) :
    bx = .body id.x ∧ bz = .body id.z ∨
      (id.x ∈ bx.reach ∧ id.z ∈ bz.reach) ∧ ∃ d, merged id d = true := by
  cases bx with
  | body x =>
      cases bz with
      | body z =>
          cases h
          exact .inl ⟨rfl, rfl⟩
      | gap k q =>
          obtain ⟨rfl, hsouth⟩ := ofBandsMerged_body_gap_eq_plot hz h
          exact .inr ⟨by simp [Band.reach], .south, hsouth⟩
  | gap n p =>
      cases bz with
      | body z =>
          obtain ⟨rfl, heast⟩ := ofBandsMerged_gap_body_eq_plot hx h
          exact .inr ⟨by simp [Band.reach], .east, heast⟩
      | gap k q =>
          have hground := Except.ok.inj h
          refine .inr ⟨?_, Crossing.exists_merged_of_ground_eq_plot hground⟩
          rcases Crossing.ground_eq_plot hground with ⟨-, rfl⟩ | ⟨rfl, -, -⟩
          · simp [Band.reach]
          · simpa [Band.reach] using ⟨Spot.side_eq n (.part p), Spot.side_eq k (.part q)⟩

/-! ### Claims -/

/-- A band within reach of a cell in bounds is in bounds itself. -/
theorem Grid.within_of_mem_reach {b : Band} (hb : b.Sound) {n min max : Int32} (hn : n ∈ b.reach)
    (hmin : min ≤ n) (hmax : n ≤ max) : within min max b = true := by
  obtain ⟨hlow, hhigh⟩ := Band.toInt_of_mem_reach hb hn
  rw [Int32.le_iff_toInt_le] at hmin hmax
  cases b with
  | body cell =>
      simp only [Band.reach, List.mem_singleton] at hn
      subst hn
      exact within_body.mpr ⟨hmin, hmax⟩
  | gap previous part =>
      rw [Band.cell] at hlow hhigh
      exact within_gap.mpr ⟨by omega, by omega⟩

namespace Area

variable {a : Area} {g : Grid} {m : Merges} {x z : Int32}

/-- A plot that counts as merged lies in bounds. -/
theorem contains_of_isMerged {d : Direction} (h : a.isMerged m id d = true) :
    a.contains id = true := by
  simp only [isMerged, Bool.and_eq_true] at h
  exact h.1.2

/-- The area claims every column around which it holds a plot. -/
theorem claims_of_around (haround : g.Around x z id) (hid : a.contains id = true) :
    g.claims a.bounds x z = true := by
  unfold Grid.claims
  cases hbounds : a.bounds with
  | none => rfl
  | some b =>
      simp only [contains, hbounds, Bounds.contains, Bool.and_eq_true, decide_eq_true_eq] at hid
      obtain ⟨⟨⟨hminX, hmaxX⟩, hminZ⟩, hmaxZ⟩ := hid
      rw [Bool.and_eq_true]
      exact ⟨Grid.within_of_mem_reach (g.sound_band g.offsetX x) haround.1 hminX hmaxX,
        Grid.within_of_mem_reach (g.sound_band g.offsetZ z) haround.2 hminZ hmaxZ⟩

/-- On plot ground the area claims the column exactly if it holds the plot of the ground. -/
theorem claims_eq_contains (h : g.mergedGround (a.isMerged m) x z = .ok (.plot id)) :
    g.claims a.bounds x z = a.contains id := by
  rcases Ground.plot_cases (g.sound_band g.offsetX x) (g.sound_band g.offsetZ z) h with
    ⟨hx, hz⟩ | ⟨haround, d, hd⟩
  · unfold Grid.claims
    cases hbounds : a.bounds with
    | none => simp [contains, hbounds]
    | some b =>
        simp [contains, hbounds, Grid.bandX, Grid.bandZ, hx, hz, Grid.within, Bounds.contains,
          Bool.and_assoc]
  · -- The plot is held because it is merged, and so all bands in its reach are claimed.
    have hid := contains_of_isMerged hd
    rw [hid]
    exact claims_of_around haround hid

/-- **Claims agree with bounds.** In an area whose period fits, under all merges, every column has a
ground and it is answered whether the area claims the column. Where the ground is that of a plot, in
the plot's body or on ground that merging opened, the area claims it exactly if the plot lies in
bounds. -/
theorem plot_claimed_iff (a : Area) (m : Merges)
    (hfits : Fits (a.plotSize.toInt + a.roadWidth.toInt)) (x z : Int32) :
    ∃ ground claimed, a.mergedGround m x z = .ok ground ∧ a.isClaimed x z = .ok claimed ∧
      ∀ id, ground = .plot id → (claimed = true ↔ a.contains id = true) := by
  obtain ⟨g, hg, -⟩ := exists_grid hfits
  obtain ⟨ground, hground⟩ := g.exists_mergedGround (a.isMerged m) x z
  refine ⟨ground, g.claims a.bounds x z, ?_, isClaimed_eq_of_grid hg x z, ?_⟩
  · rw [mergedGround_eq_of_grid hg, hground]
  · rintro id rfl
    rw [claims_eq_contains hground]

/-- The standard area, cut down to four plots. -/
def fenced : Area := { standard with bounds := some square }

/-- One plot is merged over the two walls that meet in its north-western corner, and none is merged
back. -/
def cornerwise : Merges := .ofSides [(⟨1, 1⟩, .west), (⟨1, 1⟩, .north)]

/-- The corner is plot ground behind the gap that its column counts to, and is claimed like its plot
is held; a plot beside the bounds is neither. -/
theorem plot_claimed_iff_corner :
    Fits (fenced.plotSize.toInt + fenced.roadWidth.toInt) ∧
      (fenced.mergedGround cornerwise 42 42 = .ok (.plot ⟨1, 1⟩) ∧
        fenced.contains ⟨1, 1⟩ = true ∧ fenced.isClaimed 42 42 = .ok true) ∧
      fenced.mergedGround cornerwise 90 50 = .ok (.plot ⟨2, 1⟩) ∧
        fenced.contains ⟨2, 1⟩ = false ∧ fenced.isClaimed 90 50 = .ok false := by
  have hinside : fenced.mergedGround cornerwise 42 42 = .ok (.plot ⟨1, 1⟩) := rfl
  have houtside : fenced.mergedGround cornerwise 90 50 = .ok (.plot ⟨2, 1⟩) := rfl
  refine ⟨by decide, ⟨hinside, by decide, ?_⟩, houtside, by decide, ?_⟩
  · obtain ⟨ground, claimed, hground, hclaimed, hiff⟩ :=
      plot_claimed_iff fenced cornerwise (by decide) 42 42
    cases hinside.symm.trans hground
    rw [hclaimed, (hiff ⟨1, 1⟩ rfl).mpr (by decide)]
  · obtain ⟨ground, claimed, hground, hclaimed, hiff⟩ :=
      plot_claimed_iff fenced cornerwise (by decide) 90 50
    cases houtside.symm.trans hground
    rw [hclaimed, Bool.eq_false_iff.mpr (mt (hiff ⟨2, 1⟩ rfl).mp (by decide))]

end Area

end Cadastre
