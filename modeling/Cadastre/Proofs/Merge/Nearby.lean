import Cadastre.Merge.Store
import Cadastre.Proofs.Chunk.Column
import Cadastre.Proofs.Merge.Suppression
/-!
# Cadastre.Proofs.Merge.Nearby

**What a chunk needs to know about merges.** The ground of a column is decided by the plots of its
own cell and of the next cell on either axis (`Band.reach`), and of their flags only by those that
lead over a gap in which the column lies (`Asks`). Cells grow along an axis, so the plots between the
cells of two opposite corners of a chunk, and one more on either axis, decide the ground of all its
columns.

`Area.mergedGround_select` says so: the part of a store that `MergeStore.select` keeps for those
plots is as good as the whole store.
-/

namespace Cadastre

/-! ### Parts of a store -/

namespace MergeState

theorem eq_none_of_any {s : MergeState} (h : s.any = false) : s = none := by
  obtain ⟨bits⟩ := s
  simpa [any, none] using h

end MergeState

namespace MergeStore

theorem state_set (s : MergeStore) (id other : PlotId) (state : MergeState) :
    (s.set id state).state other = if id = other then state else s.state other := by
  unfold set MergeStore.state
  rw [Std.TreeMap.getD_insert]
  simp only [Std.LawfulEqCmp.compare_eq_iff_eq]

/-- What selecting adds to a part of the store: the states of the plots that are merged at all. -/
theorem state_foldl_select (s part : MergeStore) (ids : List PlotId) (id : PlotId)
    (hpart : part.state id = s.state id ∨ part.state id = .none) :
    (ids.foldl (fun part id => if (s.state id).any then part.set id (s.state id) else part)
      part).state id = if id ∈ ids then s.state id else part.state id := by
  -- What was selected so far has the state of a plot or has not come to it yet.
  induction ids generalizing part with
  | nil => rfl
  | cons first rest ih =>
      rw [List.foldl_cons]
      by_cases hany : (s.state first).any = true
      · rw [if_pos hany, ih]
        · rw [state_set]
          by_cases heq : first = id
          · simp [heq]
          · simp [heq, Ne.symm heq]
        · rw [state_set]
          by_cases heq : first = id
          · exact .inl (by rw [if_pos heq, heq])
          · rwa [if_neg heq]
      · rw [if_neg hany, ih part hpart]
        by_cases heq : first = id
        · -- The plot is left out because its state is that of a plot that is left out.
          rw [Bool.not_eq_true, heq] at hany
          have hnone := MergeState.eq_none_of_any hany
          have hpart' : part.state id = .none := by
            rcases hpart with h | h
            · rw [h, hnone]
            · exact h
          simp [heq, hnone, hpart']
        · simp [Ne.symm heq]

/-- A selected plot has its state, and any other counts as merged with no neighbour. -/
theorem state_select (s : MergeStore) (ids : List PlotId) (id : PlotId) :
    (s.select ids).state id = if id ∈ ids then s.state id else .none :=
  s.state_foldl_select {} ids id (.inr rfl)

end MergeStore

/-! ### The plots that decide a column -/

/-- The cells that may decide what a band becomes: its own, and for a gap the one behind it. -/
def Band.reach : Band → List Int32
  | body cell => [cell]
  | gap previous _ => [previous, previous + 1]

/-- The plots around a column: of its cell, and in a gap also of the cell behind it. -/
def Grid.Around (g : Grid) (x z : Int32) (id : PlotId) : Prop :=
  id.x ∈ (g.bandX x).reach ∧ id.z ∈ (g.bandZ z).reach

/-- The cells in reach of a band are its own and perhaps the next. -/
theorem Band.toInt_of_mem_reach {b : Band} (h : b.Sound) {n : Int32} (hn : n ∈ b.reach) :
    b.cell.toInt ≤ n.toInt ∧ n.toInt ≤ b.cell.toInt + 1 := by
  cases b with
  | body cell =>
      simp only [reach, List.mem_singleton] at hn
      rw [hn]
      exact ⟨le_rfl, Int.le_add_one le_rfl⟩
  | gap previous part =>
      have hsucc : (previous + 1).toInt = previous.toInt + 1 := Int32.toInt_add_of_fits h
      simp only [reach, List.mem_cons, List.not_mem_nil, or_false] at hn
      rcases hn with rfl | rfl
      · exact ⟨le_rfl, Int.le_add_one le_rfl⟩
      · rw [hsucc]
        exact ⟨Int.le_add_one le_rfl, le_rfl⟩

/-- Whether a flag of a plot has a say in what two bands become: they lie in the gap that the flag
leads over, beside the plot or where the gap ends. -/
def Asks (bx bz : Band) (id : PlotId) (d : Direction) : Prop :=
  match d with
  | .east | .west => (∃ p, bx = .gap (id.before d).x p) ∧ id.z ∈ bz.reach
  | .north | .south => (∃ p, bz = .gap (id.before d).z p) ∧ id.x ∈ bx.reach

section Reach

variable {merged merged' : PlotId → Direction → Bool} {bx bz : Band}

theorem PlotId.x_mem_reach_of_before (id : PlotId) (p : GapPart) :
    id.x ∈ (Band.gap (id.before .west).x p).reach := by
  simp [Band.reach, before, neighbor, Direction.offset, Int32.add_assoc]

theorem PlotId.z_mem_reach_of_before (id : PlotId) (p : GapPart) :
    id.z ∈ (Band.gap (id.before .north).z p).reach := by
  simp [Band.reach, before, neighbor, Direction.offset, Int32.add_assoc]

/-- Only flags of plots in reach have a say. -/
theorem mem_reach_of_asks {id : PlotId} {d : Direction} (h : Asks bx bz id d) :
    id.x ∈ bx.reach ∧ id.z ∈ bz.reach := by
  cases d with
  | east =>
      obtain ⟨⟨p, rfl⟩, hz⟩ := h
      exact ⟨List.mem_cons_self, hz⟩
  | south =>
      obtain ⟨⟨q, rfl⟩, hx⟩ := h
      exact ⟨hx, List.mem_cons_self⟩
  | west =>
      obtain ⟨⟨p, rfl⟩, hz⟩ := h
      exact ⟨id.x_mem_reach_of_before p, hz⟩
  | north =>
      obtain ⟨⟨q, rfl⟩, hx⟩ := h
      exact ⟨hx, id.z_mem_reach_of_before q⟩

/-- Where two gaps cross, the flags that lead over one of them decide. -/
theorem Crossing.ground_congr {n k : Int32} {p q : GapPart}
    (h : ∀ id d, Asks (.gap n p) (.gap k q) id d → merged id d = merged' id d) :
    (of ⟨n, k⟩).ground merged p q = (of ⟨n, k⟩).ground merged' p q := by
  have hx : ∀ z ∈ [k, k + 1], merged ⟨n, z⟩ .east = merged' ⟨n, z⟩ .east ∧
      merged ⟨n + 1, z⟩ .west = merged' ⟨n + 1, z⟩ .west := fun z hz =>
    ⟨h _ _ ⟨⟨p, rfl⟩, hz⟩,
      h _ _ ⟨⟨p, congrArg (Band.gap ·.x p) (PlotId.neighbor_west_succ n z).symm⟩, hz⟩⟩
  have hz : ∀ x ∈ [n, n + 1], merged ⟨x, k⟩ .south = merged' ⟨x, k⟩ .south ∧
      merged ⟨x, k + 1⟩ .north = merged' ⟨x, k + 1⟩ .north := fun x hx =>
    ⟨h _ _ ⟨⟨q, rfl⟩, hx⟩,
      h _ _ ⟨⟨q, congrArg (Band.gap ·.z q) (PlotId.neighbor_north_succ x k).symm⟩, hx⟩⟩
  obtain ⟨hae, hbw⟩ := hx k (by simp)
  obtain ⟨hce, hdw⟩ := hx (k + 1) (by simp)
  obtain ⟨has, hcn⟩ := hz n (by simp)
  obtain ⟨hbs, hdn⟩ := hz (n + 1) (by simp)
  unfold ground isFull line corner
  rw [of_a, of_b, of_c, of_d, hae, hbw, hce, hdw, has, hcn, hbs, hdn]

/-- Flags that have no say may differ. -/
theorem Ground.ofBandsMerged_congr_of_asks
    (h : ∀ id d, Asks bx bz id d → merged id d = merged' id d) :
    ofBandsMerged merged bx bz = ofBandsMerged merged' bx bz := by
  cases bx with
  | body x =>
      cases bz with
      | body z => rfl
      | gap k q =>
          have hsouth := h ⟨x, k⟩ .south ⟨⟨q, rfl⟩, List.mem_cons_self⟩
          rw [ofBandsMerged_body_gap, ofBandsMerged_body_gap, hsouth]
  | gap n p =>
      cases bz with
      | body z =>
          have heast := h ⟨n, z⟩ .east ⟨⟨p, rfl⟩, List.mem_cons_self⟩
          rw [ofBandsMerged_gap_body, ofBandsMerged_gap_body, heast]
      | gap k q => exact congrArg Except.ok (Crossing.ground_congr h)

/-- Flags of plots out of reach have no say. -/
theorem Ground.ofBandsMerged_congr
    (h : ∀ x ∈ bx.reach, ∀ z ∈ bz.reach, merged ⟨x, z⟩ = merged' ⟨x, z⟩) :
    ofBandsMerged merged bx bz = ofBandsMerged merged' bx bz := by
  refine ofBandsMerged_congr_of_asks fun id d hasks => ?_
  obtain ⟨hx, hz⟩ := mem_reach_of_asks hasks
  exact congrFun (h id.x hx id.z hz) d

end Reach

/-! ### The plots near a chunk -/

theorem mem_cellsBetween {first last n : Int32} :
    n ∈ cellsBetween first last ↔ first.toInt ≤ n.toInt ∧ n.toInt ≤ last.toInt := by
  obtain ⟨hlow, -⟩ := Int32.fits_toInt first
  obtain ⟨-, hhigh⟩ := Int32.fits_toInt last
  -- The step from the first number to another is small enough to be taken without an overflow.
  have hstep (i : Nat) (hi : i < (last.toInt - first.toInt + 1).toNat) :
      (first + Int32.ofNat i).toInt = first.toInt + i := by
    rw [Int32.toInt_add, Int32.toInt_ofNat', Int32.size, Int.add_bmod_bmod, Int.bmod_eq_of_le]
    · omega
    · omega
  simp only [cellsBetween, List.mem_map, List.mem_range]
  constructor
  · intro ⟨i, hi, hn⟩
    rw [← hn, hstep i hi]
    omega
  · intro ⟨hfirst, hlast⟩
    refine ⟨(n.toInt - first.toInt).toNat, by omega, ?_⟩
    rw [← Int32.toInt_inj, hstep _ (by omega)]
    omega

namespace Grid

variable {g : Grid} {offset : Int32}

/-- What decides a band between two others lies between their cells, or one behind the last. -/
theorem reach_band (h : 2 ≤ g.period) {first w last n : Int32} (hfirst : first.toInt ≤ w.toInt)
    (hlast : w.toInt ≤ last.toInt) (hn : n ∈ (g.band offset w).reach) :
    (g.band offset first).cell.toInt ≤ n.toInt ∧
      n.toInt ≤ (g.band offset last).cell.toInt + 1 := by
  have hlow := cell_le_cell h offset hfirst
  have hhigh := cell_le_cell h offset hlast
  have hmem := Band.toInt_of_mem_reach (band_sound h w) hn
  omega

end Grid

namespace Area

variable {a : Area} {coord : ChunkCoord} {ids : List PlotId}

/-- The plots near a chunk are those from the cells of its first column to the cells behind those of
its last. -/
theorem mem_plotsNear {g : Grid} (hg : a.grid = .ok g) (hnear : a.plotsNear coord = .ok ids)
    {id : PlotId}
    (hx : (g.bandX coord.minX).cell.toInt ≤ id.x.toInt ∧
      id.x.toInt ≤ (g.bandX (coord.minX + 15)).cell.toInt + 1)
    (hz : (g.bandZ coord.minZ).cell.toInt ≤ id.z.toInt ∧
      id.z.toInt ≤ (g.bandZ (coord.minZ + 15)).cell.toInt + 1) : id ∈ ids := by
  unfold plotsNear at hnear
  rw [hg] at hnear
  simp only [bind, Except.bind, pure, Except.pure] at hnear
  -- The last cell on either axis was computed, so its number is the exact sum.
  cases hlastX : Checked.add (g.bandX (coord.minX + 15)).cell 1 with
  | error e =>
      rw [hlastX] at hnear
      cases hnear
  | ok lastX =>
      have hsumX := exact_eq_ok_iff.mp hlastX
      have hmemX : id.x ∈ cellsBetween (g.bandX coord.minX).cell lastX :=
        mem_cellsBetween.mpr ⟨hx.1, by rw [hsumX]; exact hx.2⟩
      have hsome : (cellsBetween (g.bandX coord.minX).cell lastX).isEmpty = false :=
        List.isEmpty_eq_false_iff.mpr (List.ne_nil_of_mem hmemX)
      simp only [hlastX, hsome, Bool.false_eq_true, if_false] at hnear
      cases hlastZ : Checked.add (g.bandZ (coord.minZ + 15)).cell 1 with
      | error e =>
          rw [hlastZ] at hnear
          cases hnear
      | ok lastZ =>
          have hsumZ := exact_eq_ok_iff.mp hlastZ
          have hmemZ : id.z ∈ cellsBetween (g.bandZ coord.minZ).cell lastZ :=
            mem_cellsBetween.mpr ⟨hz.1, by rw [hsumZ]; exact hz.2⟩
          rw [hlastZ] at hnear
          injection hnear with hids
          rw [← hids, List.mem_flatMap]
          exact ⟨id.x, hmemX, List.mem_map.mpr ⟨id.z, hmemZ, rfl⟩⟩

/-- Plots can be near a chunk only in an area with a grid. -/
theorem exists_grid_of_plotsNear (hnear : a.plotsNear coord = .ok ids) : ∃ g, a.grid = .ok g := by
  cases hg : a.grid with
  | error e =>
      unfold plotsNear at hnear
      rw [hg] at hnear
      cases hnear
  | ok g => exact ⟨g, rfl⟩

/-- **The part of a store that a chunk needs.** In every column of a chunk, the states of the plots
near the chunk give the same ground as all states. -/
theorem mergedGround_select (hnear : a.plotsNear coord = .ok ids) (s : MergeStore) (col : Column) :
    a.mergedGround (s.select ids).merges (col.worldX coord) (col.worldZ coord) =
      a.mergedGround s.merges (col.worldX coord) (col.worldZ coord) := by
  obtain ⟨g, hg⟩ := exists_grid_of_plotsNear hnear
  rw [mergedGround_eq_of_grid hg, mergedGround_eq_of_grid hg]
  unfold Grid.mergedGround
  by_cases hwidth : g.roadWidth.toInt = 0
  · -- Without gaps nobody asks who is merged.
    obtain ⟨n, hx⟩ := Grid.exists_band_eq_body hwidth g.offsetX (col.worldX coord)
    obtain ⟨k, hz⟩ := Grid.exists_band_eq_body hwidth g.offsetZ (col.worldZ coord)
    rw [Grid.bandX, Grid.bandZ, hx, hz]
    rfl
  · -- Every plot in reach of a column is near the chunk, and those keep their states.
    have hperiod := Grid.two_le_period hwidth
    refine Ground.ofBandsMerged_congr fun x hx z hz => ?_
    have hid : (⟨x, z⟩ : PlotId) ∈ ids := by
      have hcolX := col.worldX_mem coord
      have hcolZ := col.worldZ_mem coord
      exact mem_plotsNear hg hnear (Grid.reach_band hperiod hcolX.1 hcolX.2 hx)
        (Grid.reach_band hperiod hcolZ.1 hcolZ.2 hz)
    funext d
    unfold isMerged MergeStore.merges
    rw [s.state_select, if_pos hid]

end Area

end Cadastre
