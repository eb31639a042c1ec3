import Cadastre.Proofs.Merge.Crossing
import Mathlib.Logic.Relation
/-!
# Cadastre.Proofs.Merge.Isolation

**No opening joins strangers.** Where plot ground of two plots meets, a chain of merged neighbours
leads from the one to the other, whatever the merges are. Flags need not agree for that: a flag that
is set on one side only may open a wall, but then it links the two plots itself.

The plot that owns a column of a gap or of a crossing is not always the nearest one, so two columns
are not compared by their owners directly. Each place around a crossing lies on the side of one of
the four plots (`Spot.side`). Plot ground belongs to the parcel of that plot, and a step from one
side to the other leads through a high wall, which is plot only where the two sides are linked
(`Ground.plot_around`).
-/

namespace Cadastre

variable {merged : PlotId → Direction → Bool} {n k : Int32}

/-! ### Parcels -/

/-- Two neighbouring plots, one of which is merged towards the other. -/
def Linked (merged : PlotId → Direction → Bool) (p q : PlotId) : Prop :=
  ∃ d, p.neighbor d = q ∧ (merged p d = true ∨ merged q d.opposite = true)

theorem linked_of_merged {p : PlotId} {d : Direction} (h : merged p d = true) :
    Linked merged p (p.neighbor d) :=
  ⟨d, rfl, .inl h⟩

theorem Linked.symm {p q : PlotId} (h : Linked merged p q) : Linked merged q p := by
  obtain ⟨d, rfl, hflag⟩ := h
  refine ⟨d.opposite, PlotId.neighbor_opposite p d, ?_⟩
  rw [Direction.opposite_opposite]
  exact hflag.symm

/-- Plots of one parcel: a chain of linked plots leads from the one to the other. -/
def SameParcel (merged : PlotId → Direction → Bool) : PlotId → PlotId → Prop :=
  Relation.ReflTransGen (Linked merged)

namespace SameParcel

@[refl] theorem refl (p : PlotId) : SameParcel merged p p := Relation.ReflTransGen.refl

theorem symm {p q : PlotId} (h : SameParcel merged p q) : SameParcel merged q p := by
  induction h with
  | refl => exact refl p
  | tail _ hlink ih => exact .head hlink.symm ih

theorem trans {p q r : PlotId} (h : SameParcel merged p q) (h' : SameParcel merged q r) :
    SameParcel merged p r :=
  Relation.ReflTransGen.trans h h'

theorem of_merged {p q : PlotId} {d : Direction} (h : merged p d = true)
    (hq : p.neighbor d = q) : SameParcel merged p q :=
  hq ▸ .single (linked_of_merged h)

/-- A plot that is merged eastward. -/
theorem east (h : merged ⟨n, k⟩ .east = true) : SameParcel merged ⟨n, k⟩ ⟨n + 1, k⟩ :=
  of_merged h (by simp [PlotId.neighbor, Direction.offset])

/-- A plot that is merged southward. -/
theorem south (h : merged ⟨n, k⟩ .south = true) : SameParcel merged ⟨n, k⟩ ⟨n, k + 1⟩ :=
  of_merged h (by simp [PlotId.neighbor, Direction.offset])

/-- A plot that is merged westward. -/
theorem west (h : merged ⟨n + 1, k⟩ .west = true) : SameParcel merged ⟨n, k⟩ ⟨n + 1, k⟩ :=
  symm (of_merged h (by simp [PlotId.neighbor, Direction.offset, Int32.add_assoc]))

/-- A plot that is merged northward. -/
theorem north (h : merged ⟨n, k + 1⟩ .north = true) : SameParcel merged ⟨n, k⟩ ⟨n, k + 1⟩ :=
  symm (of_merged h (by simp [PlotId.neighbor, Direction.offset, Int32.add_assoc]))

end SameParcel

/-! ### Sides -/

namespace Spot

/-- The cell on whose side of the gap after `cell` a place lies. The road counts to the cell before
it. -/
def side (cell : Int32) : Spot → Int32
  | before => cell
  | part .low => cell
  | part .road => cell
  | part .high => cell + 1
  | after => cell + 1

theorem side_eq (cell : Int32) (s : Spot) : s.side cell = cell ∨ s.side cell = cell + 1 := by
  rcases s with _ | ⟨_ | _ | _⟩ | _ <;> simp [side]

/-- A place is in a gap, or in the plot of its side. -/
theorem part_or_body (cell : Int32) (s : Spot) :
    (∃ p, s = part p) ∨ s.band cell = .body (s.side cell) ∧ s ≠ part .high := by
  cases s with
  | before => exact .inr ⟨rfl, by simp⟩
  | part p => exact .inl ⟨p, rfl⟩
  | after => exact .inr ⟨rfl, by simp⟩

/-- One step changes the side only by entering the high wall. -/
theorem Next.side_step {r : Int} {s t : Spot} (h : s.Next r t) (cell : Int32) :
    s.side cell = t.side cell ∨ s.side cell = cell ∧ t = part .high := by
  cases h with
  | enterLow => exact .inl rfl
  | enterHigh => exact .inr ⟨rfl, rfl⟩
  | lowRoad => exact .inl rfl
  | lowHigh => exact .inr ⟨rfl, rfl⟩
  | roadHigh => exact .inr ⟨rfl, rfl⟩
  | leave => exact .inl rfl

end Spot

/-! ### Around one crossing -/

namespace Crossing

theorem line_eq_plot {first second id : PlotId} {along facing : Direction}
    (h : line merged first second along facing = .plot id) :
    id = first ∧ merged first facing = true := by
  unfold line at h
  split_ifs at h with halong hfacing
  rw [Bool.and_eq_true] at hfacing
  cases h
  exact ⟨rfl, hfacing.1⟩

theorem corner_eq_plot {owner id : PlotId} {facingX facingZ : Direction}
    (h : corner merged owner facingX facingZ = .plot id) :
    id = owner ∧ merged owner facingX = true ∧ merged owner facingZ = true := by
  unfold corner at h
  split_ifs at h with hfacing
  rw [Bool.and_eq_true] at hfacing
  cases h
  exact ⟨rfl, hfacing⟩

/-- Around a full crossing all four plots are of one parcel. -/
theorem sameParcel_of_isFull (h : (of ⟨n, k⟩).isFull merged = true) (s t : Spot) :
    SameParcel merged ⟨n, k⟩ ⟨s.side n, t.side k⟩ := by
  unfold isFull at h
  simp only [Bool.and_eq_true, of_b, of_c] at h
  obtain ⟨⟨⟨heast, hsouth⟩, hsouth'⟩, -⟩ := h
  rcases s.side_eq n with hx | hx <;> rcases t.side_eq k with hz | hz <;> simp only [hx, hz]
  case inl.inl => exact .refl _
  case inl.inr => exact .south hsouth
  case inr.inl => exact .east heast
  case inr.inr => exact (SameParcel.east heast).trans (.south hsouth')

/-- Plot ground where two gaps cross belongs to the plot on its side, which is merged over every
high wall that the place lies in. Only in a full crossing all ground belongs to the first plot. -/
theorem ground_eq_plot {p q : GapPart} {id : PlotId}
    (h : (of ⟨n, k⟩).ground merged p q = .plot id) :
    (of ⟨n, k⟩).isFull merged = true ∧ id = ⟨n, k⟩ ∨
      id = ⟨Spot.side n (.part p), Spot.side k (.part q)⟩ ∧
        (p = .high → merged id .west = true) ∧ (q = .high → merged id .north = true) := by
  unfold ground at h
  by_cases hfull : (of ⟨n, k⟩).isFull merged = true
  · rw [if_pos hfull] at h
    cases h
    exact .inl ⟨hfull, rfl⟩
  · rw [if_neg hfull] at h
    refine .inr ?_
    cases p <;> cases q <;> simp only [of_b, of_c, of_d] at h
    case low.low | high.low | low.high | high.high =>
        obtain ⟨rfl, hx, hz⟩ := corner_eq_plot h
        exact ⟨rfl, by simp [hx], by simp [hz]⟩
    case road.low | road.high | low.road | high.road =>
        obtain ⟨rfl, hfacing⟩ := line_eq_plot h
        exact ⟨rfl, by simp [hfacing], by simp [hfacing]⟩
    case road.road => cases h

end Crossing

namespace Ground

theorem ofBandsMerged_gap_body_eq_plot {z : Int32} {p : GapPart} {id : PlotId}
    (hs : (Band.gap n p).Sound)
    (h : ofBandsMerged merged (.gap n p) (.body z) = .ok (.plot id)) :
    id = ⟨n, z⟩ ∧ merged ⟨n, z⟩ .east = true := by
  obtain ⟨ground, hok, hplot, -⟩ := kind_gap_body merged (z := z) hs
  rw [h] at hok
  cases hok
  have heast : merged ⟨n, z⟩ .east = true := hplot.symm
  rw [ofBandsMerged_gap_body, if_pos heast] at h
  cases h
  exact ⟨rfl, heast⟩

theorem ofBandsMerged_body_gap_eq_plot {x : Int32} {p : GapPart} {id : PlotId}
    (hs : (Band.gap n p).Sound)
    (h : ofBandsMerged merged (.body x) (.gap n p) = .ok (.plot id)) :
    id = ⟨x, n⟩ ∧ merged ⟨x, n⟩ .south = true := by
  obtain ⟨ground, hok, hplot, -⟩ := kind_body_gap merged (x := x) hs
  rw [h] at hok
  cases hok
  have hsouth : merged ⟨x, n⟩ .south = true := hplot.symm
  rw [ofBandsMerged_body_gap, if_pos hsouth] at h
  cases h
  exact ⟨rfl, hsouth⟩

/-- **Plot ground around a crossing** belongs to the parcel of the plot on its side. In the high
wall of a gap there is plot ground only where the plots on the two sides of that gap are of one
parcel. -/
theorem plot_around {s t : Spot} {id : PlotId} (hs : (s.band n).Sound) (ht : (t.band k).Sound)
    (h : ofBandsMerged merged (s.band n) (t.band k) = .ok (.plot id)) :
    SameParcel merged id ⟨s.side n, t.side k⟩ ∧
      (s = .part .high → SameParcel merged ⟨n, t.side k⟩ ⟨n + 1, t.side k⟩) ∧
      (t = .part .high → SameParcel merged ⟨s.side n, k⟩ ⟨s.side n, k + 1⟩) := by
  rcases s.part_or_body n with ⟨p, rfl⟩ | ⟨hbodyX, hneX⟩ <;>
    rcases t.part_or_body k with ⟨q, rfl⟩ | ⟨hbodyZ, hneZ⟩
  case inl.inl =>
      rcases Crossing.ground_eq_plot (Except.ok.inj h) with ⟨hfull, rfl⟩ | ⟨rfl, hwest, hnorth⟩
      · have hall := Crossing.sameParcel_of_isFull hfull
        exact ⟨hall _ _, fun _ => (hall .before _).symm.trans (hall .after _),
          fun _ => (hall _ .before).symm.trans (hall _ .after)⟩
      · refine ⟨.refl _, fun hp => ?_, fun hq => ?_⟩
        · cases hp
          exact .west (hwest rfl)
        · cases hq
          exact .north (hnorth rfl)
  case inl.inr =>
      rw [hbodyZ] at h
      obtain ⟨rfl, heast⟩ := ofBandsMerged_gap_body_eq_plot hs h
      refine ⟨?_, fun _ => .east heast, fun hq => absurd hq hneZ⟩
      cases p with
      | low => exact .refl _
      | road => exact .refl _
      | high => exact .east heast
  case inr.inl =>
      rw [hbodyX] at h
      obtain ⟨rfl, hsouth⟩ := ofBandsMerged_body_gap_eq_plot ht h
      refine ⟨?_, fun hp => absurd hp hneX, fun _ => .south hsouth⟩
      cases q with
      | low => exact .refl _
      | road => exact .refl _
      | high => exact .south hsouth
  case inr.inr =>
      rw [hbodyX, hbodyZ] at h
      cases h
      exact ⟨.refl _, fun hp => absurd hp hneX, fun hq => absurd hq hneZ⟩

end Ground

/-! ### Neighbouring columns -/

section Step

variable {s s' t t' : Spot} {r : Int} {id id' : PlotId}

/-- Plot ground a step along the `x` axis apart is of one parcel. -/
theorem Ground.sameParcel_of_nextX (hs : (s.band n).Sound) (hs' : (s'.band n).Sound)
    (ht : (t.band k).Sound) (hnext : s.Next r s')
    (h : ofBandsMerged merged (s.band n) (t.band k) = .ok (.plot id))
    (h' : ofBandsMerged merged (s'.band n) (t.band k) = .ok (.plot id')) :
    SameParcel merged id id' := by
  obtain ⟨hown, -, -⟩ := plot_around hs ht h
  obtain ⟨hown', hover, -⟩ := plot_around hs' ht h'
  rcases hnext.side_step n with hside | ⟨hside, rfl⟩
  · rw [hside] at hown
    exact hown.trans hown'.symm
  · rw [hside] at hown
    exact (hown.trans (hover rfl)).trans hown'.symm

/-- Plot ground a step along the `z` axis apart is of one parcel. -/
theorem Ground.sameParcel_of_nextZ (hs : (s.band n).Sound) (ht : (t.band k).Sound)
    (ht' : (t'.band k).Sound) (hnext : t.Next r t')
    (h : ofBandsMerged merged (s.band n) (t.band k) = .ok (.plot id))
    (h' : ofBandsMerged merged (s.band n) (t'.band k) = .ok (.plot id')) :
    SameParcel merged id id' := by
  obtain ⟨hown, -, -⟩ := plot_around hs ht h
  obtain ⟨hown', -, hover⟩ := plot_around hs ht' h'
  rcases hnext.side_step k with hside | ⟨hside, rfl⟩
  · rw [hside] at hown
    exact hown.trans hown'.symm
  · rw [hside] at hown
    exact (hown.trans (hover rfl)).trans hown'.symm

end Step

/-- Plot ground of two columns that share an edge is of one parcel. -/
theorem Grid.sameParcel_of_beside {g : Grid} (hr : 1 ≤ g.roadWidth.toInt) {x z x' z' : Int32}
    (hadj : Beside x z x' z') {id id' : PlotId} (h : g.mergedGround merged x z = .ok (.plot id))
    (h' : g.mergedGround merged x' z' = .ok (.plot id')) : SameParcel merged id id' := by
  have hperiod : 2 ≤ g.period := two_le_period (by omega)
  unfold mergedGround at h h'
  rcases beside_cases hperiod hr hadj with ⟨hx, hz⟩ | ⟨n, k, s, s', t, t', hx, hx', hz, hz', hnext⟩
  · -- Columns with the same bands are the same ground.
    rw [hx, hz, h'] at h
    cases h
    exact .refl _
  · have hs : (s.band n).Sound := hx ▸ band_sound hperiod x
    have hs' : (s'.band n).Sound := hx' ▸ band_sound hperiod x'
    have ht : (t.band k).Sound := hz ▸ band_sound hperiod z
    have ht' : (t'.band k).Sound := hz' ▸ band_sound hperiod z'
    rw [hx, hz] at h
    rw [hx', hz'] at h'
    rcases hnext with ⟨rfl, hnext | hnext⟩ | ⟨rfl, hnext | hnext⟩
    · exact Ground.sameParcel_of_nextX hs hs' ht hnext h h'
    · exact (Ground.sameParcel_of_nextX hs' hs ht hnext h' h).symm
    · exact Ground.sameParcel_of_nextZ hs ht ht' hnext h h'
    · exact (Ground.sameParcel_of_nextZ hs ht' ht hnext h' h).symm

namespace Area

/-- **Parcels are isolated.** In an area with roads and a period in range, whatever the merges are,
every column has a ground; and where of two columns that share an edge both are plot ground, their
plots are the same or a chain of neighbouring plots leads from the one to the other in which at each
step one of the two is merged towards the other. -/
theorem parcels_isolated (a : Area) (m : Merges) (hwidth : 1 ≤ a.roadWidth.toInt)
    (hfits : Fits (a.plotSize.toInt + a.roadWidth.toInt)) (x z x' z' : Int32)
    (hadj : Beside x z x' z') :
    ∃ ground ground', a.mergedGround m x z = .ok ground ∧ a.mergedGround m x' z' = .ok ground' ∧
      ∀ p q, ground = .plot p → ground' = .plot q →
        SameParcel (a.isMerged m) p q := by
  obtain ⟨g, hg, -, hroads, -, -⟩ := exists_grid hfits
  obtain ⟨ground, hok⟩ := g.exists_mergedGround (a.isMerged m) x z
  obtain ⟨ground', hok'⟩ := g.exists_mergedGround (a.isMerged m) x' z'
  refine ⟨ground, ground', ?_, ?_, ?_⟩
  · rw [mergedGround_eq_of_grid hg]
    exact hok
  · rw [mergedGround_eq_of_grid hg]
    exact hok'
  · rintro p q rfl rfl
    exact Grid.sameParcel_of_beside (hroads ▸ hwidth) hadj hok hok'

/-- The standard area with roads of a single column. -/
def narrow : Area := { standard with roadWidth := 1, roadWidth_nonneg := by decide }

/-- Three flags around a crossing, none of which is returned by the neighbour. -/
def oneSided : Merges := .ofSides [(⟨0, 0⟩, .south), (⟨1, 1⟩, .west), (⟨1, 1⟩, .north)]

/-- Between narrow roads plots that meet only at a corner can be side by side. The chain leads
through the plot south of the one and west of the other. -/
theorem parcels_isolated_oneSided :
    1 ≤ narrow.roadWidth.toInt ∧ Fits (narrow.plotSize.toInt + narrow.roadWidth.toInt) ∧
      Beside 32 33 33 33 ∧ narrow.mergedGround oneSided 32 33 = .ok (.plot ⟨0, 0⟩) ∧
      narrow.mergedGround oneSided 33 33 = .ok (.plot ⟨1, 1⟩) ∧
      SameParcel (narrow.isMerged oneSided) ⟨0, 0⟩ ⟨1, 1⟩ := by
  have hplot : narrow.mergedGround oneSided 32 33 = .ok (.plot ⟨0, 0⟩) := rfl
  have hplot' : narrow.mergedGround oneSided 33 33 = .ok (.plot ⟨1, 1⟩) := rfl
  obtain ⟨ground, ground', hok, hok', hsame⟩ :=
    parcels_isolated narrow oneSided (by decide) (by decide) 32 33 33 33 (by decide)
  cases hplot.symm.trans hok
  cases hplot'.symm.trans hok'
  exact ⟨by decide, by decide, by decide, hplot, hplot', hsame _ _ rfl rfl⟩

end Area

end Cadastre
