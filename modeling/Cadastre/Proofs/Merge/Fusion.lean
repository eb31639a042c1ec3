import Cadastre.Proofs.Grid.Geometry
import Cadastre.Proofs.Merge.Crossing
/-!
# Cadastre.Proofs.Merge.Fusion

**A rectangle of merged plots is one plot.** Where the plots of a rectangle are merged with each
other and with nobody else, the columns from the first plot's lowest to the last plot's highest are
plot throughout, and a closed line of wall runs around them.

Along either axis a band lies over the cells of the rectangle (`Band.Over`), or is at most the wall
of one of them (`Band.Belongs`). The ground of a column follows from its two bands, whatever the
plots outside are merged with among themselves.
-/

namespace Cadastre

/-! ### Rectangles of plots -/

namespace Bounds

/-- Whether a cell along `x` belongs to a rectangle. -/
def spanX (r : Bounds) (n : Int32) : Bool := r.min.x ≤ n && n ≤ r.max.x

/-- Whether a cell along `z` belongs to a rectangle. -/
def spanZ (r : Bounds) (n : Int32) : Bool := r.min.z ≤ n && n ≤ r.max.z

theorem contains_eq (r : Bounds) (x z : Int32) : r.contains ⟨x, z⟩ = (r.spanX x && r.spanZ z) := by
  simp only [contains, spanX, spanZ, Bool.and_assoc]

end Bounds

/-- The plots of a rectangle are merged towards each other, and over the edge of the rectangle
nobody is merged from either side. -/
structure Fuses (merged : PlotId → Direction → Bool) (r : Bounds) : Prop where
  inside : ∀ id, r.contains id = true → ∀ d, merged id d = r.contains (id.neighbor d)
  outside : ∀ id, r.contains id = false → ∀ d, r.contains (id.neighbor d) = true →
    merged id d = false

/-- The bounds of an area do not come between the plots of a rectangle inside them. -/
theorem Area.isMerged_fuses {a : Area} {m : Merges} {r : Bounds}
    (hbounds : ∀ id, r.contains id = true → a.contains id = true)
    (h : Fuses (fun id d => (m id).contains d) r) : Fuses (a.isMerged m) r where
  inside id hid d := by
    rw [isMerged, h.inside id hid d, hbounds id hid, Bool.and_true]
    cases hneighbor : r.contains (id.neighbor d) with
    | false => rfl
    | true => rw [hbounds _ hneighbor, Bool.and_true]
  outside id hid d hneighbor := by
    rw [isMerged, h.outside id hid d hneighbor, Bool.false_and, Bool.false_and]

/-! ### The ground around a rectangle -/

namespace Band

/-- A band lies over some cells: in one of their plots or between two. -/
def Over (cells : Int32 → Bool) : Band → Prop
  | body n => cells n = true
  | gap n _ => cells n = true ∧ cells (n + 1) = true

/-- A band belongs to some cells: it lies over them, or it is the wall of one of them. -/
def Belongs (cells : Int32 → Bool) : Band → Prop
  | body n => cells n = true
  | gap n .low => cells n = true
  | gap n .road => cells n = true ∧ cells (n + 1) = true
  | gap n .high => cells (n + 1) = true

/-- A gap that belongs to some cells lies beside one of them. -/
theorem Belongs.either {cells : Int32 → Bool} {n : Int32} {p : GapPart}
    (h : (gap n p).Belongs cells) : cells n = true ∨ cells (n + 1) = true := by
  cases p with
  | low => exact .inl h
  | road => exact .inl h.1
  | high => exact .inr h

theorem Over.belongs {cells : Int32 → Bool} {b : Band} (h : b.Over cells) : b.Belongs cells := by
  cases b with
  | body n => exact h
  | gap n p =>
      cases p with
      | low => exact h.1
      | road => exact h
      | high => exact h.2

end Band

namespace Fuses

variable {merged : PlotId → Direction → Bool} {r : Bounds} {bx bz : Band} {n k : Int32}

/-- Of two neighbours not both outside, each is merged towards the other if both are inside. -/
theorem flag (h : Fuses merged r) (id : PlotId) (d : Direction)
    (hinside : r.contains id = true ∨ r.contains (id.neighbor d) = true) :
    merged id d = (r.contains id && r.contains (id.neighbor d)) := by
  cases hid : r.contains id with
  | true => rw [h.inside id hid d, Bool.true_and]
  | false =>
      rw [hid] at hinside
      rw [h.outside id hid d (hinside.resolve_left Bool.false_ne_true), Bool.false_and]

/-- Plots that are merged lie both inside or both outside. -/
theorem together (h : Fuses merged r) {id : PlotId} {d : Direction} (hmerged : merged id d = true) :
    r.contains id = r.contains (id.neighbor d) := by
  cases hid : r.contains id with
  | true => rw [← h.inside id hid d, hmerged]
  | false =>
      cases hneighbor : r.contains (id.neighbor d) with
      | true => rw [h.outside id hid d hneighbor] at hmerged; exact hmerged
      | false => rfl

theorem flag_east (h : Fuses merged r) (hz : r.spanZ k = true)
    (hx : r.spanX n = true ∨ r.spanX (n + 1) = true) :
    merged ⟨n, k⟩ .east = (r.spanX n && r.spanX (n + 1)) := by
  have hflag := h.flag ⟨n, k⟩ .east
  simpa [PlotId.neighbor_east, r.contains_eq, hz, hx] using hflag

theorem flag_south (h : Fuses merged r) (hx : r.spanX n = true)
    (hz : r.spanZ k = true ∨ r.spanZ (k + 1) = true) :
    merged ⟨n, k⟩ .south = (r.spanZ k && r.spanZ (k + 1)) := by
  have hflag := h.flag ⟨n, k⟩ .south
  simpa [PlotId.neighbor_south, r.contains_eq, hx, hz] using hflag

/-- A corner keeps its wall where one of its sides faces out of the rectangle. -/
theorem corner_rim (h : Fuses merged r) {owner : PlotId} {dx dz : Direction}
    (howner : r.contains owner = true)
    (hout : (r.contains (owner.neighbor dx) && r.contains (owner.neighbor dz)) = false) :
    Crossing.corner merged owner dx dz = .wall owner (.corner dx dz) := by
  rw [← h.inside owner howner, ← h.inside owner howner] at hout
  rw [Crossing.corner, hout, if_neg Bool.false_ne_true]

/-- A wall line that faces out of the rectangle goes on between two plots of the rectangle. -/
theorem line_rim (h : Fuses merged r) {first second : PlotId} {along facing : Direction}
    (hfirst : r.contains first = true) (hsecond : r.contains (first.neighbor along) = true)
    (hout : r.contains (first.neighbor facing) = false) :
    Crossing.line merged first second along facing = .wall first (.edge facing) := by
  rw [Crossing.line, h.inside first hfirst, h.inside first hfirst, hsecond, hout]
  rfl

/-- Over a rectangle of merged plots everything is plot. -/
theorem ground_over (h : Fuses merged r) (hx : bx.Over r.spanX) (hz : bz.Over r.spanZ) :
    ∃ id, r.contains id = true ∧ Ground.ofBandsMerged merged bx bz = .ok (.plot id) := by
  cases bx with
  | body x =>
      cases bz with
      | body z => exact ⟨⟨x, z⟩, by simp_all [Band.Over, r.contains_eq], rfl⟩
      | gap k q =>
          obtain ⟨hz, hz'⟩ := hz
          have hsouth : merged ⟨x, k⟩ .south = true := by
            rw [h.flag_south hx (.inl hz), hz, hz']
            rfl
          exact ⟨⟨x, k⟩, by rw [r.contains_eq, hx, hz]; rfl, if_pos hsouth⟩
  | gap n p =>
      obtain ⟨hx, hx'⟩ := hx
      cases bz with
      | body z =>
          have heast : merged ⟨n, z⟩ .east = true := by
            rw [h.flag_east hz (.inl hx), hx, hx']
            rfl
          exact ⟨⟨n, z⟩, by rw [r.contains_eq, hx, hz]; rfl, if_pos heast⟩
      | gap k q =>
          obtain ⟨hz, hz'⟩ := hz
          have hfull : (Crossing.of ⟨n, k⟩).isFull merged = true := by
            simp [Crossing.isFull_of, h.flag_east, h.flag_south, hx, hx', hz, hz']
          exact ⟨⟨n, k⟩, by rw [r.contains_eq, hx, hz]; rfl, congrArg Except.ok (if_pos hfull)⟩

/-- A full crossing that a rectangle reaches lies inside it. -/
theorem not_isFull_of_rim (h : Fuses merged r) {p q : GapPart}
    (hx : (Band.gap n p).Belongs r.spanX) (hz : (Band.gap k q).Belongs r.spanZ)
    (hrim : ¬ ((Band.gap n p).Over r.spanX ∧ (Band.gap k q).Over r.spanZ)) :
    (Crossing.of ⟨n, k⟩).isFull merged = false := by
  rw [← Bool.not_eq_true]
  intro hfull
  simp only [Crossing.isFull_of, Bool.and_eq_true] at hfull
  obtain ⟨⟨⟨hnorth, hwest⟩, heast⟩, -⟩ := hfull
  -- The merged seams keep the four plots together, and one of them belongs to the rectangle.
  have hab := h.together hnorth
  have hac := h.together hwest
  have hbd := h.together heast
  simp only [PlotId.neighbor_east, PlotId.neighbor_south, r.contains_eq] at hab hac hbd
  simp only [Band.Over] at hrim
  rcases hx.either with hn | hn <;> rcases hz.either with hk | hk <;> simp_all

/-- **The wall of a rectangle goes on** along the roads that used to meet it, and around its
corners. -/
theorem crossing_rim (h : Fuses merged r) {p q : GapPart} (hx : (Band.gap n p).Belongs r.spanX)
    (hz : (Band.gap k q).Belongs r.spanZ)
    (hrim : ¬ ((Band.gap n p).Over r.spanX ∧ (Band.gap k q).Over r.spanZ)) :
    ∃ owner segment, r.contains owner = true ∧
      (Crossing.of ⟨n, k⟩).ground merged p q = .wall owner segment := by
  have hfull := h.not_isFull_of_rim hx hz hrim
  have hcontains := r.contains_eq
  simp only [Crossing.ground, hfull, Bool.false_eq_true, if_false, Crossing.of_a, Crossing.of_b,
    Crossing.of_c, Crossing.of_d]
  simp only [Band.Over] at hrim
  -- Each place but the middle is a wall of the plot on its side.
  cases p <;> cases q <;> simp only [Band.Belongs] at hx hz
  case low.low =>
      have ha : r.contains ⟨n, k⟩ = true := by rw [hcontains, hx, hz]; rfl
      refine ⟨⟨n, k⟩, .corner .east .south, ha, h.corner_rim ha ?_⟩
      rw [PlotId.neighbor_east, PlotId.neighbor_south, hcontains, hcontains]
      simp_all
  case high.low =>
      have hb : r.contains ⟨n + 1, k⟩ = true := by rw [hcontains, hx, hz]; rfl
      refine ⟨⟨n + 1, k⟩, .corner .west .south, hb, h.corner_rim hb ?_⟩
      rw [PlotId.neighbor_west_succ, PlotId.neighbor_south, hcontains, hcontains]
      simp_all
  case low.high =>
      have hc : r.contains ⟨n, k + 1⟩ = true := by rw [hcontains, hx, hz]; rfl
      refine ⟨⟨n, k + 1⟩, .corner .east .north, hc, h.corner_rim hc ?_⟩
      rw [PlotId.neighbor_east, PlotId.neighbor_north_succ, hcontains, hcontains]
      simp_all
  case high.high =>
      have hd : r.contains ⟨n + 1, k + 1⟩ = true := by rw [hcontains, hx, hz]; rfl
      refine ⟨⟨n + 1, k + 1⟩, .corner .west .north, hd, h.corner_rim hd ?_⟩
      rw [PlotId.neighbor_west_succ, PlotId.neighbor_north_succ, hcontains, hcontains]
      simp_all
  case low.road =>
      have ha : r.contains ⟨n, k⟩ = true := by rw [hcontains, hx, hz.1]; rfl
      refine ⟨⟨n, k⟩, .edge .east, ha, h.line_rim ha ?_ ?_⟩
      · rw [PlotId.neighbor_south, hcontains, hx, hz.2]; rfl
      · rw [PlotId.neighbor_east, hcontains]; simp_all
  case high.road =>
      have hb : r.contains ⟨n + 1, k⟩ = true := by rw [hcontains, hx, hz.1]; rfl
      refine ⟨⟨n + 1, k⟩, .edge .west, hb, h.line_rim hb ?_ ?_⟩
      · rw [PlotId.neighbor_south, hcontains, hx, hz.2]; rfl
      · rw [PlotId.neighbor_west_succ, hcontains]; simp_all
  case road.low =>
      have ha : r.contains ⟨n, k⟩ = true := by rw [hcontains, hx.1, hz]; rfl
      refine ⟨⟨n, k⟩, .edge .south, ha, h.line_rim ha ?_ ?_⟩
      · rw [PlotId.neighbor_east, hcontains, hx.2, hz]; rfl
      · rw [PlotId.neighbor_south, hcontains]; simp_all
  case road.high =>
      have hc : r.contains ⟨n, k + 1⟩ = true := by rw [hcontains, hx.1, hz]; rfl
      refine ⟨⟨n, k + 1⟩, .edge .north, hc, h.line_rim hc ?_ ?_⟩
      · rw [PlotId.neighbor_east, hcontains, hx.2, hz]; rfl
      · rw [PlotId.neighbor_north_succ, hcontains]; simp_all
  case road.road => exact absurd ⟨hx, hz⟩ hrim

/-- **Around a rectangle of merged plots everything is wall** of one of its plots. -/
theorem ground_rim (h : Fuses merged r) (hsx : bx.Sound) (hsz : bz.Sound)
    (hx : bx.Belongs r.spanX) (hz : bz.Belongs r.spanZ)
    (hrim : ¬ (bx.Over r.spanX ∧ bz.Over r.spanZ)) :
    ∃ owner segment, r.contains owner = true ∧
      Ground.ofBandsMerged merged bx bz = .ok (.wall owner segment) := by
  cases bx with
  | body x =>
      cases bz with
      | body z => exact absurd ⟨hx, hz⟩ hrim
      | gap k q =>
          have hopen : merged ⟨x, k⟩ .south = false := by
            rw [h.flag_south hx hz.either, ← Bool.not_eq_true, Bool.and_eq_true]
            exact fun hover => hrim ⟨hx, hover⟩
          rw [Ground.ofBandsMerged_body_gap, hopen, if_neg Bool.false_ne_true,
            Ground.ofBands_eq hsx hsz]
          simp only [Band.Belongs] at hx
          cases q with
          | low => exact ⟨⟨x, k⟩, .edge .south, by rw [r.contains_eq, hx, hz]; rfl, rfl⟩
          | road => exact absurd ⟨hx, hz⟩ hrim
          | high => exact ⟨⟨x, k + 1⟩, .edge .north, by rw [r.contains_eq, hx, hz]; rfl, rfl⟩
  | gap n p =>
      cases bz with
      | body z =>
          have hopen : merged ⟨n, z⟩ .east = false := by
            rw [h.flag_east hz hx.either, ← Bool.not_eq_true, Bool.and_eq_true]
            exact fun hover => hrim ⟨hover, hz⟩
          rw [Ground.ofBandsMerged_gap_body, hopen, if_neg Bool.false_ne_true,
            Ground.ofBands_eq hsx hsz]
          simp only [Band.Belongs] at hz
          cases p with
          | low => exact ⟨⟨n, z⟩, .edge .east, by rw [r.contains_eq, hx, hz]; rfl, rfl⟩
          | road => exact absurd ⟨hx, hz⟩ hrim
          | high => exact ⟨⟨n + 1, z⟩, .edge .west, by rw [r.contains_eq, hx, hz]; rfl, rfl⟩
      | gap k q =>
          obtain ⟨owner, segment, howner, hground⟩ := h.crossing_rim hx hz hrim
          exact ⟨owner, segment, howner, congrArg Except.ok hground⟩

end Fuses

/-! ### Columns of the world -/

/-- How far a coordinate lies beyond two ends; none if it lies between them. -/
def distanceBeyond (low high w : Int32) : Nat :=
  (max (low.toInt - w.toInt) (w.toInt - high.toInt)).toNat

namespace Grid

variable {g : Grid} {offset first last w : Int32}

/-- The distance of a column from those between the lowest column of a rectangle's first plot and
the highest of its last. A step over a corner counts as one. -/
def distanceFrom (g : Grid) (r : Bounds) (x z : Int32) : Nat :=
  max (distanceBeyond (g.plotBottom r.min).1 (g.plotTop r.max).1 x)
    (distanceBeyond (g.plotBottom r.min).2 (g.plotTop r.max).2 z)

/-- The plots of a rectangle and the columns around them have coordinates in range. -/
structure Holds (g : Grid) (r : Bounds) : Prop where
  west : Fits (g.plotLow g.offsetX r.min.x - 1)
  east : Fits (g.plotHigh g.offsetX r.max.x + 1)
  north : Fits (g.plotLow g.offsetZ r.min.z - 1)
  south : Fits (g.plotHigh g.offsetZ r.max.z + 1)

theorem le_of_start_lt (g : Grid) (offset : Int32) {m n : Int}
    (h : g.start offset m < g.start offset (n + 1)) : m ≤ n := by
  by_contra hlt
  have := start_le_start g offset (show n + 1 ≤ m by omega)
  omega

/-- A coordinate lies over some cells exactly if it lies between the ends of their plots. -/
theorem band_over_iff (h : 2 ≤ g.period) :
    (g.band offset w).Over (fun n => first ≤ n && n ≤ last) ↔
      g.plotLow offset first ≤ w.toInt ∧ w.toInt ≤ g.plotHigh offset last := by
  have hr := g.roadWidth_nonneg
  have hrp := g.roadWidth_lt_period
  have hend := start_succ g offset last.toInt
  cases hband : g.band offset w with
  | body n =>
      obtain ⟨hn, hn'⟩ := (band_eq_body_iff h).mp hband
      have hnext := start_succ g offset n.toInt
      simp only [Band.Over, Bool.and_eq_true, decide_eq_true_eq, Int32.le_iff_toInt_le, plotLow,
        plotHigh] at hn hn' ⊢
      constructor
      · rintro ⟨hfirst, hlast⟩
        have := start_le_start g offset hfirst
        have := start_le_start g offset hlast
        omega
      · rintro ⟨hlow, hhigh⟩
        exact ⟨le_of_start_lt g offset (by omega), le_of_start_lt g offset (by omega)⟩
  | gap n part =>
      obtain ⟨hn, hn', -⟩ := (band_eq_gap_iff h).mp hband
      have hnext := start_succ g offset n.toInt
      have hsucc : (n + 1).toInt = n.toInt + 1 := Int32.toInt_add_of_fits (fits_succ_of_gap h hband)
      simp only [Band.Over, Bool.and_eq_true, decide_eq_true_eq, Int32.le_iff_toInt_le, hsucc,
        plotLow, plotHigh]
      constructor
      · rintro ⟨⟨hfirst, -⟩, -, hlast⟩
        have := start_le_start g offset hfirst
        have := start_le_start g offset hlast
        omega
      · rintro ⟨hlow, hhigh⟩
        have hfirst : first.toInt ≤ n.toInt := le_of_start_lt g offset (by omega)
        have hlast : n.toInt + 1 ≤ last.toInt := le_of_start_lt g offset (by omega)
        omega

/-- One step beyond either end there is a wall of these cells. -/
theorem band_belongs (h : 2 ≤ g.period) (hwidth : 2 ≤ g.roadWidth.toInt) (hle : first ≤ last)
    (hlow : g.plotLow offset first - 1 ≤ w.toInt) (hhigh : w.toInt ≤ g.plotHigh offset last + 1) :
    (g.band offset w).Belongs fun n => first ≤ n && n ≤ last := by
  by_cases hfirst : w.toInt = g.plotLow offset first - 1
  · have haway : g.away offset first w = -1 := away_eq_neg_one_iff.mpr hfirst
    obtain ⟨n, hband, rfl⟩ := (band_eq_high_iff h).mpr ⟨haway, by omega⟩
    rw [hband]
    simp [Band.Belongs, hle]
  by_cases hlast : w.toInt = g.plotHigh offset last + 1
  · have haway : g.away offset last w = 1 := by
      rw [away_eq_one_iff, start_succ, hlast, plotHigh]
      omega
    rw [(band_eq_low_iff h).mpr ⟨haway, hwidth⟩]
    simp [Band.Belongs, hle]
  exact ((band_over_iff h).mpr (by omega)).belongs

theorem plotLow_le_plotHigh (g : Grid) (offset : Int32) (hle : first ≤ last) :
    g.plotLow offset first ≤ g.plotHigh offset last := by
  have hstart := start_le_start g offset (Int32.le_iff_toInt_le.mp hle)
  have hrp := g.roadWidth_lt_period
  unfold plotLow plotHigh
  omega

/-- The distance from a rectangle in range is that from the exact ends of its plots. -/
theorem distanceFrom_eq {r : Bounds} (hr : g.Holds r) (x z : Int32) :
    g.distanceFrom r x z =
      max (max (g.plotLow g.offsetX r.min.x - x.toInt) (x.toInt - g.plotHigh g.offsetX r.max.x)).toNat
        (max (g.plotLow g.offsetZ r.min.z - z.toInt)
          (z.toInt - g.plotHigh g.offsetZ r.max.z)).toNat := by
  obtain ⟨⟨hwest, -⟩, ⟨-, heast⟩, ⟨hnorth, -⟩, ⟨-, hsouth⟩⟩ := hr
  have hx := plotLow_le_plotHigh g g.offsetX r.x_le
  have hz := plotLow_le_plotHigh g g.offsetZ r.z_le
  obtain ⟨hlowX, hlowZ⟩ : (g.plotBottom r.min).1.toInt = _ ∧ (g.plotBottom r.min).2.toInt = _ :=
    toInt_plotBottom ⟨by omega, by omega⟩ ⟨by omega, by omega⟩
  obtain ⟨hhighX, hhighZ⟩ : (g.plotTop r.max).1.toInt = _ ∧ (g.plotTop r.max).2.toInt = _ :=
    toInt_plotTop ⟨by omega, by omega⟩ ⟨by omega, by omega⟩
  rw [distanceFrom, distanceBeyond, distanceBeyond, hlowX, hlowZ, hhighX, hhighZ]

end Grid

/-- **A rectangle of merged plots is one plot with a wall around it.** In an area with roads of two
columns or more and a period in range, take a rectangle of plots inside the bounds. Let its plots be
merged towards each other, and let nobody be merged over its edge from either side; beyond that the
plots outside may be merged in any way. Where the plots and the columns around them are in range,
every column from the lowest of the first plot to the highest of the last is ground of one of the
plots, and every column at a distance of one from these is a wall of one of them. -/
theorem Area.rectangle_fused (a : Area) (m : Merges) (hwidth : 2 ≤ a.roadWidth.toInt)
    (hfits : Fits (a.plotSize.toInt + a.roadWidth.toInt)) (r : Bounds)
    (hbounds : ∀ id, r.contains id = true → a.contains id = true)
    (hfuses : Fuses (fun id d => (m id).contains d) r) :
    ∃ g, a.grid = .ok g ∧ (g.Holds r → ∀ x z,
      (g.distanceFrom r x z = 0 →
        ∃ id, r.contains id = true ∧ a.mergedGround m x z = .ok (.plot id)) ∧
      (g.distanceFrom r x z = 1 → ∃ owner segment,
        r.contains owner = true ∧ a.mergedGround m x z = .ok (.wall owner segment))) := by
  obtain ⟨g, hg, hsize, hroads, -, -⟩ := exists_grid hfits
  rw [← hroads] at hwidth
  have hperiod : 2 ≤ g.period := Grid.two_le_period (by omega)
  have hmerged := isMerged_fuses hbounds hfuses
  refine ⟨g, hg, fun hholds x z => ?_⟩
  rw [mergedGround_eq_of_grid hg, Grid.mergedGround, Grid.distanceFrom_eq hholds]
  have hoverX : (g.bandX x).Over r.spanX ↔ _ := Grid.band_over_iff hperiod
  have hoverZ : (g.bandZ z).Over r.spanZ ↔ _ := Grid.band_over_iff hperiod
  constructor
  · intro hinside
    exact hmerged.ground_over (hoverX.mpr (by omega)) (hoverZ.mpr (by omega))
  · intro hring
    refine hmerged.ground_rim (Grid.band_sound hperiod x) (Grid.band_sound hperiod z)
      (Grid.band_belongs hperiod hwidth r.x_le (by omega) (by omega))
      (Grid.band_belongs hperiod hwidth r.z_le (by omega) (by omega)) ?_
    rw [hoverX, hoverZ]
    omega

/-- Two plots by two. -/
def square : Bounds := ⟨⟨0, 0⟩, ⟨1, 1⟩, by decide, by decide⟩

/-- The sides over which the plots of the square are merged, and some that have nothing to do with
it: two plots east of it are merged, and a plot north of it is merged on one side only. -/
def squareSides : List (PlotId × Direction) :=
  [(⟨0, 0⟩, .east), (⟨1, 0⟩, .west), (⟨0, 1⟩, .east), (⟨1, 1⟩, .west), (⟨0, 0⟩, .south),
    (⟨0, 1⟩, .north), (⟨1, 0⟩, .south), (⟨1, 1⟩, .north), (⟨2, 0⟩, .south), (⟨2, 1⟩, .north),
    (⟨0, -1⟩, .east)]

theorem mem_square {id : PlotId} (h : square.contains id = true) :
    id ∈ [(⟨0, 0⟩ : PlotId), ⟨1, 0⟩, ⟨0, 1⟩, ⟨1, 1⟩] := by
  have hcell (n : Int32) (hn : ((0 : Int32) ≤ n && n ≤ 1) = true) : n = 0 ∨ n = 1 := by
    simp only [Bool.and_eq_true, decide_eq_true_eq, Int32.le_iff_toInt_le] at hn
    rw [← Int32.toInt_inj, ← Int32.toInt_inj, Int32.toInt_zero, Int32.toInt_one] at *
    omega
  obtain ⟨x, z⟩ := id
  rw [square.contains_eq, Bool.and_eq_true] at h
  rcases hcell x h.1 with rfl | rfl <;> rcases hcell z h.2 with rfl | rfl <;> simp

theorem square_fuses : Fuses (fun id d => (Merges.ofSides squareSides id).contains d) square where
  inside id hid d := by
    have hplots : ∀ id ∈ [(⟨0, 0⟩ : PlotId), ⟨1, 0⟩, ⟨0, 1⟩, ⟨1, 1⟩], ∀ d ∈ Direction.all,
        (Merges.ofSides squareSides id).contains d = square.contains (id.neighbor d) := by decide
    exact hplots id (mem_square hid) d d.mem_all
  outside id hid d hneighbor := by
    rw [Merges.contains_ofSides, decide_eq_false_iff_not]
    intro hmem
    -- None of the sides leads into the square from outside.
    have hsides : ∀ side ∈ squareSides, square.contains side.1 = false →
        square.contains (side.1.neighbor side.2) = false := by decide
    rw [hsides (id, d) hmem hid] at hneighbor
    cases hneighbor

/-- The middle of the square is plot. Its wall goes on where a road used to meet it from the west,
and around its last corner. -/
theorem Area.rectangle_fused_square :
    (2 ≤ standard.roadWidth.toInt ∧ Fits (standard.plotSize.toInt + standard.roadWidth.toInt) ∧
      (∀ id, square.contains id = true → standard.contains id = true) ∧
      Fuses (fun id d => (Merges.ofSides squareSides id).contains d) square) ∧
      (∃ id, square.contains id = true ∧
        standard.mergedGround (.ofSides squareSides) 39 39 = .ok (.plot id)) ∧
      (∃ owner segment, square.contains owner = true ∧
        standard.mergedGround (.ofSides squareSides) 3 40 = .ok (.wall owner segment)) ∧
      ∃ owner segment, square.contains owner = true ∧
        standard.mergedGround (.ofSides squareSides) 75 75 = .ok (.wall owner segment) := by
  have hbounds : ∀ id, square.contains id = true → standard.contains id = true :=
    fun _ _ => rfl
  refine ⟨⟨by decide, by decide, hbounds, square_fuses⟩, ?_⟩
  obtain ⟨g, hg, hcolumns⟩ := rectangle_fused standard (.ofSides squareSides) (by decide)
    (by decide) square hbounds square_fuses
  cases Except.ok.inj (show Except.ok _ = Except.ok g from hg)
  have hall := hcolumns ⟨by decide, by decide, by decide, by decide⟩
  exact ⟨(hall 39 39).1 (by decide), (hall 3 40).2 (by decide), (hall 75 75).2 (by decide)⟩

end Cadastre
