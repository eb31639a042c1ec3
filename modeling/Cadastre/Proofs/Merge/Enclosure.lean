import Cadastre.Proofs.Merge.Crossing
/-!
# Cadastre.Proofs.Merge.Enclosure

**Where parcels lie open to the road.** Walls should keep every parcel apart from the road. They do,
with one exception: where three of the four seams around a crossing are merged and the fourth is
not, the road that enters over the open seam ends in the middle of the crossing, and the wall line
on the far side of the middle has become plot.

`Area.plot_beside_road_iff` says that plot ground is next to road there and nowhere else. So whether
a world is enclosed can be told from its crossings alone.
-/

namespace Cadastre

/-! ### Around one crossing -/

/-- The place of the wall line that runs past the middle of a crossing on one side. -/
def linePlace : Direction → GapPart × GapPart
  | .north => (.road, .low)
  | .east => (.high, .road)
  | .south => (.road, .high)
  | .west => (.low, .road)

/-- The direction that takes the place of another when the axes are exchanged. -/
def Direction.transpose : Direction → Direction
  | north => west
  | east => south
  | south => east
  | west => north

namespace Seams

/-- All seams of a crossing are merged but the one on a side. -/
def LacksOnly (s : Seams) (side : Direction) : Prop := ∀ d, s.on d = true ↔ d ≠ side

/-- A wall line that became plot, and the middle of its crossing, where road enters from the other
side. -/
def Breach (s : Seams) (p q p' q' : Spot) : Prop :=
  ∃ side, p = .part (linePlace side).1 ∧ q = .part (linePlace side).2 ∧
    p' = .part .road ∧ q' = .part .road ∧ s.LacksOnly side.opposite

theorem lacksOnly_transpose {s : Seams} {side : Direction} (h : s.transpose.LacksOnly side) :
    s.LacksOnly side.transpose := by
  intro d
  have hd := h d.transpose
  cases d <;> cases side <;> simpa [Direction.transpose, transpose, on] using hd

/-- Exchanging the axes takes breaches to breaches. -/
theorem breach_transpose {s : Seams} {p q p' q' : Spot} (h : s.transpose.Breach q p q' p') :
    s.Breach p q p' q' := by
  obtain ⟨side, hq, hp, hq', hp', hlacks⟩ := h
  refine ⟨side.transpose, ?_, ?_, hp', hq', ?_⟩
  · rw [hp]; cases side <;> rfl
  · rw [hq]; cases side <;> rfl
  · have := lacksOnly_transpose hlacks
    cases side <;> exact this

/-- At a breach there is plot beside road. -/
theorem plot_road_of_breach {s : Seams} {p q p' q' : Spot} (h : s.Breach p q p' q') :
    s.plotAt p q = true ∧ s.roadAt p' q' = true := by
  obtain ⟨side, rfl, rfl, rfl, rfl, hlacks⟩ := h
  have hn := hlacks .north
  have he := hlacks .east
  have hs := hlacks .south
  have hw := hlacks .west
  simp only [on] at hn he hs hw
  cases side <;>
    simp_all [linePlace, plotAt, roadAt, isFull, Direction.opposite]

/-- The seams of a crossing that is not full although those on three sides are merged. -/
theorem lacksOnly_of_not_full {s : Seams} {side : Direction} (h : ∀ d, d ≠ side → s.on d = true)
    (hfull : s.isFull = false) : s.LacksOnly side := by
  intro d
  refine ⟨fun hd heq => ?_, h d⟩
  subst heq
  have hall (d' : Direction) : s.on d' = true := by
    by_cases hne : d' = d
    · rw [hne]; exact hd
    · exact h d' hne
  have hn := hall .north
  have he := hall .east
  have hs := hall .south
  have hw := hall .west
  simp only [on] at hn he hs hw
  simp [isFull, hn, he, hs, hw] at hfull

/-- Around one crossing, along the `x` axis, plot lies beside road at breaches only. -/
theorem breach_of_next {s : Seams} {p p' q : Spot} {r : Int} (hr : 3 ≤ r)
    (h : p.Next r p' ∨ p'.Next r p) (hplot : s.plotAt p q = true) (hroad : s.roadAt p' q = true) :
    s.Breach p q p' q := by
  -- Only the two wall lines beside the middle survive: elsewhere the road needs a seam unmerged
  -- that the plot needs merged.
  rcases h with h | h <;> cases h <;> rcases q with _ | ⟨_ | _ | _⟩ | _ <;>
    simp only [plotAt, roadAt, Bool.and_eq_true, Bool.not_eq_true', Bool.false_eq_true]
      at hplot hroad
  case inl.lowRoad.part.road =>
      obtain ⟨⟨hw, hn⟩, hs⟩ := hplot
      refine ⟨.west, rfl, rfl, rfl, rfl, lacksOnly_of_not_full (fun d hd => ?_) hroad⟩
      cases d <;> [exact hn; exact absurd rfl hd; exact hs; exact hw]
  case inr.roadHigh.part.road =>
      obtain ⟨⟨he, hn⟩, hs⟩ := hplot
      refine ⟨.east, rfl, rfl, rfl, rfl, lacksOnly_of_not_full (fun d hd => ?_) hroad⟩
      cases d <;> [exact hn; exact he; exact hs; exact absurd rfl hd]
  all_goals first | omega | simp_all [isFull]

/-- Road lies in a gap that has room for it. -/
theorem road_of_roadAt {s : Seams} {p q : Spot} (h : s.roadAt p q = true) :
    p = .part .road ∨ q = .part .road := by
  rcases p with _ | ⟨_ | _ | _⟩ | _ <;> rcases q with _ | ⟨_ | _ | _⟩ | _ <;> simp_all [roadAt]

end Seams

/-! ### Around the world -/

namespace Grid

variable {g : Grid} {merged : PlotId → Direction → Bool} {x z x' z' : Int32}

/-- A column is a wall line that became plot, and the other lies beside it in the middle of the same
crossing, whose only seam that is not merged is the one across the middle. -/
def Opens (g : Grid) (merged : PlotId → Direction → Bool) (x z x' z' : Int32) : Prop :=
  ∃ (id : PlotId) (side : Direction),
    g.bandX x = .gap id.x (linePlace side).1 ∧ g.bandZ z = .gap id.z (linePlace side).2 ∧
      g.bandX x' = .gap id.x .road ∧ g.bandZ z' = .gap id.z .road ∧
      ((Crossing.of id).seams merged).LacksOnly side.opposite

/-- The seams of a crossing decide what the columns around it are. -/
theorem mergedGround_kind (h : 2 ≤ g.period) (hm : Mutual merged) {n k : Int32} {p q : Spot}
    {ground : Ground} (hx : g.bandX x = p.band n) (hz : g.bandZ z = q.band k)
    (hok : g.mergedGround merged x z = .ok ground) :
    ground.isPlot = ((Crossing.of ⟨n, k⟩).seams merged).plotAt p q ∧
      ground.isRoad = ((Crossing.of ⟨n, k⟩).seams merged).roadAt p q := by
  have hsx : (p.band n).Sound := hx ▸ band_sound h x
  have hsz : (q.band k).Sound := hz ▸ band_sound h z
  obtain ⟨found, hfound, hkind⟩ := Ground.ofBandsMerged_kind hm hsx hsz
  unfold mergedGround at hok
  rw [hx, hz, hfound] at hok
  cases hok
  exact hkind

/-- Around a crossing, plot lies beside road only where the crossing opens. -/
theorem opens_of_spots (h : 2 ≤ g.period) (hm : Mutual merged) {n k : Int32} {p q p' q' : Spot}
    {ground ground' : Ground} (hx : g.bandX x = p.band n) (hz : g.bandZ z = q.band k)
    (hx' : g.bandX x' = p'.band n) (hz' : g.bandZ z' = q'.band k)
    (hok : g.mergedGround merged x z = .ok ground)
    (hok' : g.mergedGround merged x' z' = .ok ground')
    (hnext : q = q' ∧ (p.Next g.roadWidth.toInt p' ∨ p'.Next g.roadWidth.toInt p) ∨
      p = p' ∧ (q.Next g.roadWidth.toInt q' ∨ q'.Next g.roadWidth.toInt q))
    (hplot : ground.isPlot = true) (hroad : ground'.isRoad = true) : g.Opens merged x z x' z' := by
  rw [(mergedGround_kind h hm hx hz hok).1] at hplot
  rw [(mergedGround_kind h hm hx' hz' hok').2] at hroad
  -- Where there is road at all, a gap has a wall on either side of it.
  have hr : 3 ≤ g.roadWidth.toInt := by
    rcases Seams.road_of_roadAt hroad with rfl | rfl
    · exact three_le_of_road h hx'
    · exact three_le_of_road h hz'
  have hbreach : ((Crossing.of ⟨n, k⟩).seams merged).Breach p q p' q' := by
    rcases hnext with ⟨rfl, hnext⟩ | ⟨rfl, hnext⟩
    · exact Seams.breach_of_next hr hnext hplot hroad
    · -- The same around the crossing seen with the axes exchanged.
      rw [← Seams.plotAt_transpose] at hplot
      rw [← Seams.roadAt_transpose] at hroad
      exact Seams.breach_transpose (Seams.breach_of_next hr hnext hplot hroad)
  obtain ⟨side, rfl, rfl, rfl, rfl, hlacks⟩ := hbreach
  exact ⟨⟨n, k⟩, side, hx, hz, hx', hz', hlacks⟩

/-- Where a crossing opens, plot lies beside road. -/
theorem plot_road_of_opens (h : 2 ≤ g.period) (hm : Mutual merged) {ground ground' : Ground}
    (hok : g.mergedGround merged x z = .ok ground)
    (hok' : g.mergedGround merged x' z' = .ok ground')
    (hopens : g.Opens merged x z x' z') : ground.isPlot = true ∧ ground'.isRoad = true := by
  obtain ⟨⟨n, k⟩, side, hx, hz, hx', hz', hlacks⟩ := hopens
  have hbreach : ((Crossing.of ⟨n, k⟩).seams merged).Breach (.part (linePlace side).1)
      (.part (linePlace side).2) (.part .road) (.part .road) := ⟨side, rfl, rfl, rfl, rfl, hlacks⟩
  obtain ⟨hplot, hroad⟩ := Seams.plot_road_of_breach hbreach
  constructor
  · rw [(mergedGround_kind (p := .part _) (q := .part _) h hm hx hz hok).1]
    exact hplot
  · rw [(mergedGround_kind (p := .part _) (q := .part _) h hm hx' hz' hok').2]
    exact hroad

/-- Plot lies beside road only where a crossing opens. -/
theorem opens_of_plot_road (h : 2 ≤ g.period) (hr : 1 ≤ g.roadWidth.toInt) (hm : Mutual merged)
    (hadj : Beside x z x' z') {ground ground' : Ground}
    (hok : g.mergedGround merged x z = .ok ground)
    (hok' : g.mergedGround merged x' z' = .ok ground')
    (hplot : ground.isPlot = true) (hroad : ground'.isRoad = true) : g.Opens merged x z x' z' := by
  -- Columns with the same bands are the same ground, so the step is one from band to band.
  have hne : ¬ (g.bandX x = g.bandX x' ∧ g.bandZ z = g.bandZ z') := by
    intro ⟨hx, hz⟩
    unfold mergedGround at hok hok'
    rw [hx, hz, hok'] at hok
    injection hok with heq
    rw [heq] at hroad
    cases ground <;> simp [Ground.isPlot, Ground.isRoad] at hplot hroad
  rcases beside_cases h hr hadj with heq | ⟨n, k, p, p', q, q', hx, hx', hz, hz', hnext⟩
  · exact absurd heq hne
  · exact opens_of_spots h hm hx hz hx' hz' hok hok' hnext hplot hroad

end Grid

namespace Area

/-- **Where parcels lie open to the road.** In an area with roads and a period in range, let the
states of neighbours agree. Then every column has a ground, and of two columns that share an edge
the one is plot and the other road exactly if a crossing opens there: the one is the wall line on
one side of the crossing's middle, the other lies in the middle, and of the four seams of the
crossing only the one on the opposite side is not merged. -/
theorem plot_beside_road_iff (a : Area) (m : Merges) (hwidth : 1 ≤ a.roadWidth.toInt)
    (hfits : Fits (a.plotSize.toInt + a.roadWidth.toInt)) (hm : m.Mutual) (x z x' z' : Int32)
    (hadj : Beside x z x' z') :
    ∃ g ground ground', a.grid = .ok g ∧ a.mergedGround m x z = .ok ground ∧
      a.mergedGround m x' z' = .ok ground' ∧
      (ground.isPlot = true ∧ ground'.isRoad = true ↔ g.Opens (a.isMerged m) x z x' z') := by
  obtain ⟨g, hg, hsize, hroads, -, -⟩ := exists_grid hfits
  have hr : 1 ≤ g.roadWidth.toInt := by rw [hroads]; exact hwidth
  have hperiod : 2 ≤ g.period := by
    have := g.plotSize_pos
    unfold Grid.period
    omega
  have hmutual := a.isMerged_mutual hm
  obtain ⟨ground, hok⟩ := g.exists_mergedGround (a.isMerged m) x z
  obtain ⟨ground', hok'⟩ := g.exists_mergedGround (a.isMerged m) x' z'
  refine ⟨g, ground, ground', hg, ?_, ?_, ?_, ?_⟩
  · rw [mergedGround_eq_of_grid hg]
    exact hok
  · rw [mergedGround_eq_of_grid hg]
    exact hok'
  · intro ⟨hplot, hroad⟩
    exact Grid.opens_of_plot_road hperiod hr hmutual hadj hok hok' hplot hroad
  · intro hopens
    exact Grid.plot_road_of_opens hperiod hmutual hok hok' hopens

/-- The four plots at a crossing, merged in a horseshoe that is open between the two eastern ones.
-/
def horseshoe : Merges :=
  .ofSides [(⟨0, 0⟩, .east), (⟨1, 0⟩, .west), (⟨0, 0⟩, .south), (⟨0, 1⟩, .north), (⟨0, 1⟩, .east),
    (⟨1, 1⟩, .west)]

theorem horseshoe_mutual : horseshoe.Mutual := Merges.mutual_ofSides (by decide)

/-- The horseshoe is the case of the theorem in which a parcel is open. -/
theorem plot_beside_road_iff_horseshoe :
    1 ≤ standard.roadWidth.toInt ∧ Fits (standard.plotSize.toInt + standard.roadWidth.toInt) ∧
      horseshoe.Mutual ∧ Beside 36 38 37 38 ∧
      ∃ g ground ground', standard.grid = .ok g ∧
        standard.mergedGround horseshoe 36 38 = .ok ground ∧
        standard.mergedGround horseshoe 37 38 = .ok ground' ∧
        (ground.isPlot = true ∧ ground'.isRoad = true ↔
          g.Opens (standard.isMerged horseshoe) 36 38 37 38) :=
  ⟨by decide, by decide, horseshoe_mutual, by decide,
    plot_beside_road_iff standard horseshoe (by decide) (by decide) horseshoe_mutual 36 38 37 38
      (by decide)⟩

/-- Walls do not keep every parcel apart from the road. -/
theorem not_enclosed :
    ¬ ∀ (a : Area) (m : Merges), 1 ≤ a.roadWidth.toInt →
      Fits (a.plotSize.toInt + a.roadWidth.toInt) → m.Mutual → ∀ x z x' z', Beside x z x' z' →
      ∀ id, ¬ (a.mergedGround m x z = .ok (.plot id) ∧ a.mergedGround m x' z' = .ok .road) := by
  intro henclosed
  have hplot : standard.mergedGround horseshoe 36 38 = .ok (.plot ⟨0, 0⟩) := rfl
  have hroad : standard.mergedGround horseshoe 37 38 = .ok .road := rfl
  exact henclosed standard horseshoe (by decide) (by decide) horseshoe_mutual 36 38 37 38
    (by decide) ⟨0, 0⟩ ⟨hplot, hroad⟩

end Area

end Cadastre
