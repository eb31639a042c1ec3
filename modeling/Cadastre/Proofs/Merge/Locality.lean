import Cadastre.Proofs.Merge.Pairs
/-!
# Cadastre.Proofs.Merge.Locality

**Merging two plots changes the ground between them and nowhere else.** A call to merge two plots
sets one flag of each. Both lead over the same gap, from either side, and a flag has a say only where
a column lies in that gap beside the plot, or where the gap ends (`asks_opposite`). So whatever is
merged around them, all that can change is the gap between the two plots with the crossing at either
end of it (`Area.mergedGround_merge`).

This tells which chunks have to be built again after a call. The columns of the gap are said by the
ends of the plots in the world (`Grid.Between`), without a look at any decision about their ground.
-/

namespace Cadastre

/-! ### The columns between two plots -/

namespace Grid

variable {g : Grid} {offset n w : Int32} {x z : Int32} {id : PlotId} {d : Direction}

/-- A coordinate lies in the gap behind the plot of a cell. -/
def Behind (g : Grid) (offset cell w : Int32) : Prop :=
  g.plotHigh offset cell < w.toInt ∧ w.toInt ≤ g.plotHigh offset cell + g.roadWidth.toInt

/-- A coordinate lies beside the plot of a cell, or beside the gap on either side of it. -/
def Along (g : Grid) (offset cell w : Int32) : Prop :=
  g.plotLow offset cell - g.roadWidth.toInt ≤ w.toInt ∧
    w.toInt ≤ g.plotHigh offset cell + g.roadWidth.toInt

/-- A column lies in the gap between a plot and its neighbour in a direction, or in one of the
crossings at its two ends. -/
def Between (g : Grid) (id : PlotId) (d : Direction) (x z : Int32) : Prop :=
  match d with
  | .east | .west => g.Behind g.offsetX (id.before d).x x ∧ g.Along g.offsetZ id.z z
  | .north | .south => g.Behind g.offsetZ (id.before d).z z ∧ g.Along g.offsetX id.x x

instance : Decidable (g.Behind offset n w) := inferInstanceAs (Decidable (_ ∧ _))

instance : Decidable (g.Along offset n w) := inferInstanceAs (Decidable (_ ∧ _))

instance : Decidable (g.Between id d x z) :=
  match d with
  | .north | .east | .south | .west => inferInstanceAs (Decidable (_ ∧ _))

theorem two_le_period_of_gap {p : GapPart} (hband : g.band offset w = .gap n p) : 2 ≤ g.period := by
  refine two_le_period fun hnone => ?_
  obtain ⟨cell, hbody⟩ := exists_band_eq_body hnone offset w
  rw [hbody] at hband
  cases hband

theorem behind_of_gap {p : GapPart} (hband : g.band offset w = .gap n p) : g.Behind offset n w := by
  obtain ⟨hlow, hhigh, -⟩ := (band_eq_gap_iff (two_le_period_of_gap hband)).mp hband
  rw [start_succ] at hlow hhigh
  unfold Behind plotHigh
  omega

theorem along_of_mem_reach (h : 2 ≤ g.period) (hn : n ∈ (g.band offset w).reach) :
    g.Along offset n w := by
  have hr := g.roadWidth_nonneg
  have hrp := g.roadWidth_lt_period
  unfold Along plotLow plotHigh
  cases hband : g.band offset w with
  | body cell =>
      rw [hband, Band.reach, List.mem_singleton] at hn
      obtain ⟨hlow, hhigh⟩ := (band_eq_body_iff h).mp hband
      unfold plotLow at hlow
      unfold plotHigh at hhigh
      subst hn
      omega
  | gap cell p =>
      obtain ⟨hlow, hhigh, -⟩ := (band_eq_gap_iff h).mp hband
      have hsucc : (cell + 1).toInt = cell.toInt + 1 :=
        Int32.toInt_add_of_fits (fits_succ_of_gap h hband)
      have hstart := start_succ g offset cell.toInt
      rw [hband, Band.reach, List.mem_pair] at hn
      rcases hn with rfl | rfl
      · omega
      · rw [hsucc]
        omega

/-- A flag has a say only in the columns between its plot and the neighbour that it leads to. -/
theorem between_of_asks (hasks : Asks (g.bandX x) (g.bandZ z) id d) : g.Between id d x z := by
  cases d with
  | east | west =>
      obtain ⟨⟨p, hgap⟩, hz⟩ := hasks
      exact ⟨behind_of_gap hgap, along_of_mem_reach (two_le_period_of_gap hgap) hz⟩
  | north | south =>
      obtain ⟨⟨q, hgap⟩, hx⟩ := hasks
      exact ⟨behind_of_gap hgap, along_of_mem_reach (two_le_period_of_gap hgap) hx⟩

end Grid

/-! ### The two flags of a call -/

/-- The flags of two neighbours that lead to each other have a say in the same columns. -/
theorem asks_opposite {bx bz : Band} (id : PlotId) (d : Direction) :
    Asks bx bz (id.neighbor d) d.opposite ↔ Asks bx bz id d := by
  -- Both flags lead over the gap after the same plot, and the two plots lie beside it alike.
  cases d <;> simp [Asks, Direction.opposite, PlotId.before, PlotId.neighbor, Direction.offset,
    Int32.add_assoc]

namespace MergeState

/-- A direction more leaves the others as they are. -/
theorem contains_insert_of_ne (s : MergeState) {d d' : Direction} (h : d' ≠ d) :
    (s.insert d).contains d' = s.contains d' := by
  have hbit : d.bit &&& d'.bit = 0 := by
    cases d <;> cases d' <;> first | rfl | exact absurd rfl h
  have hor : (s.bits ||| d.bit) &&& d'.bit = (s.bits &&& d'.bit) ||| (d.bit &&& d'.bit) :=
    UInt8.toBitVec_inj.mp BitVec.and_or_distrib_right
  rw [contains, insert, hor, hbit, UInt8.or_zero, contains]

end MergeState

namespace MergeStore

/-- A call to merge two plots sets the flags that lead from one to the other and no others. -/
theorem contains_state_merge (s : MergeStore) {a id : PlotId} {d d' : Direction}
    (hfirst : ¬(id = a ∧ d' = d)) (hsecond : ¬(id = a.neighbor d ∧ d' = d.opposite)) :
    ((s.merge a (a.neighbor d)).state id).contains d' = (s.state id).contains d' := by
  rw [merge_neighbor, state_set, state_set]
  split_ifs with hneighbor ha
  · subst hneighbor
    exact MergeState.contains_insert_of_ne _ fun heq => hsecond ⟨rfl, heq⟩
  · subst ha
    exact MergeState.contains_insert_of_ne _ fun heq => hfirst ⟨rfl, heq⟩
  · rfl

/-- Plots next to each other can be merged. -/
theorem merge?_neighbor (s : MergeStore) (a : PlotId) (d : Direction) :
    s.merge? a (a.neighbor d) = some (s.merge a (a.neighbor d)) := by
  rw [merge, merge?, direction?_eq_some_iff.mpr rfl]
  rfl

end MergeStore

namespace Area

variable {a : Area} {g : Grid} {s : MergeStore} {id : PlotId} {d : Direction} {x z : Int32}

/-- Outside the gap between two plots, merging them leaves every column as it is. -/
theorem mergedGround_of_not_between (hnot : ¬g.Between id d x z) :
    g.mergedGround (a.isMerged (s.merge id (id.neighbor d)).merges) x z =
      g.mergedGround (a.isMerged s.merges) x z := by
  refine Ground.ofBandsMerged_congr_of_asks fun id' d' hasks => ?_
  -- A flag that has a say here is neither of the two that were set.
  have hfirst : ¬(id' = id ∧ d' = d) := by
    rintro ⟨rfl, rfl⟩
    exact hnot (Grid.between_of_asks hasks)
  have hsecond : ¬(id' = id.neighbor d ∧ d' = d.opposite) := by
    rintro ⟨rfl, rfl⟩
    exact hnot (Grid.between_of_asks ((asks_opposite id d).mp hasks))
  have hflag := s.contains_state_merge hfirst hsecond
  simp only [isMerged, MergeStore.merges, hflag]

/-- **Merging stays local.** In an area whose period fits, a call to merge a plot with its neighbour
succeeds, whatever the store holds. Every column has a ground before, and it has the same ground
after, of the same plot and with the same part of a wall, unless it lies in the gap between the two
plots or in one of the two crossings where this gap ends. -/
theorem mergedGround_merge (a : Area) (hfits : Fits (a.plotSize.toInt + a.roadWidth.toInt))
    (s : MergeStore) (id : PlotId) (d : Direction) :
    ∃ g s', a.grid = .ok g ∧ s.merge? id (id.neighbor d) = some s' ∧
      ∀ x z, ∃ ground, a.mergedGround s.merges x z = .ok ground ∧
        (¬g.Between id d x z → a.mergedGround s'.merges x z = .ok ground) := by
  obtain ⟨g, hg, -⟩ := exists_grid hfits
  refine ⟨g, s.merge id (id.neighbor d), hg, s.merge?_neighbor id d, fun x z => ?_⟩
  obtain ⟨ground, hground⟩ := g.exists_mergedGround (a.isMerged s.merges) x z
  refine ⟨ground, ?_, fun hnot => ?_⟩
  · rw [mergedGround_eq_of_grid hg, hground]
  · rw [mergedGround_eq_of_grid hg, mergedGround_of_not_between hnot, hground]

/-- A store in which one plot is merged with its western and its eastern neighbour. -/
def row : MergeStore := MergeStore.mergeAll [(⟨0, 0⟩, ⟨1, 0⟩), (⟨2, 0⟩, ⟨1, 0⟩)]

/-- The middle plot of the row is merged southward: the wall of the row south of its eastern
neighbour stays, next to the crossing where it opens. -/
theorem mergedGround_merge_row :
    Fits (standard.plotSize.toInt + standard.roadWidth.toInt) ∧
      ∃ s', row.merge? ⟨1, 0⟩ ⟨1, 1⟩ = some s' ∧
        standard.mergedGround row.merges 82 36 = .ok (.wall ⟨2, 0⟩ (.edge .south)) ∧
        standard.mergedGround s'.merges 82 36 = .ok (.wall ⟨2, 0⟩ (.edge .south)) := by
  obtain ⟨g, s', hg, hs', hall⟩ := mergedGround_merge standard (by decide) row ⟨1, 0⟩ .south
  cases Except.ok.inj (show Except.ok _ = Except.ok g from hg)
  obtain ⟨ground, hground, hsame⟩ := hall 82 36
  have hbefore : standard.mergedGround row.merges 82 36 = .ok (.wall ⟨2, 0⟩ (.edge .south)) := by
    rfl
  cases hbefore.symm.trans hground
  exact ⟨by decide, s', hs', hbefore, hsame (by decide)⟩

end Area

end Cadastre
