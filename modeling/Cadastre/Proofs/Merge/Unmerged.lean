import Cadastre.Proofs.Grid.Queries
import Cadastre.Proofs.Merge.Claims
/-!
# Cadastre.Proofs.Merge.Unmerged

**Without merges around it a column is what it is by geometry.** The ground under merges and the
plain ground are two decisions, each with owners and directions of its own for edges, corners and
wall lines. They coincide wherever none of the plots around the column counts as merged, whatever
the states say (`Area.mergedGround_unmerged`).

The plots around a column are those of its own cell and, on an axis where it lies in a gap, of the
next (`Grid.Around`). No flag of another plot has a say (`Ground.ofBandsMerged_congr`), so it is
enough to compare the two decisions where no flag is set at all (`Ground.ofBandsMerged_none`). Around
a column that an area with bounds does not claim, no plot lies in bounds and so none counts as
merged.
-/

namespace Cadastre

/-- With no flag set, the decision under merges is the plain one. -/
theorem Ground.ofBandsMerged_none {bx bz : Band} (hx : bx.Sound) (hz : bz.Sound) :
    ofBandsMerged (fun _ _ => false) bx bz = ofBands bx bz := by
  cases bx with
  | body x =>
      cases bz with
      | body z => rfl
      | gap k q => rw [ofBandsMerged_body_gap, if_neg Bool.false_ne_true]
  | gap n p =>
      cases bz with
      | body z => rw [ofBandsMerged_gap_body, if_neg Bool.false_ne_true]
      | gap k q =>
          rw [ofBands_eq hx hz]
          -- The two tables side by side, one row for each pair of gap parts.
          cases p <;> cases q <;>
            simp only [ofBandsMerged, Crossing.ground, Crossing.isFull, Crossing.of_b,
              Crossing.of_c, Crossing.of_d] <;> rfl

namespace Grid

variable {g : Grid} {merged : PlotId → Direction → Bool} {x z : Int32}

/-- Where no plot around a column is merged, merges leave the column as it is. -/
theorem mergedGround_eq_ground (h : ∀ id, g.Around x z id → ∀ d, merged id d = false) :
    g.mergedGround merged x z = g.ground x z := by
  have hnone : g.mergedGround merged x z = g.mergedGround (fun _ _ => false) x z :=
    Ground.ofBandsMerged_congr fun n hn k hk => funext (h ⟨n, k⟩ ⟨hn, hk⟩)
  rw [hnone]
  exact Ground.ofBandsMerged_none (g.sound_band g.offsetX x) (g.sound_band g.offsetZ z)

end Grid

namespace Area

variable {a : Area} {g : Grid} {m : Merges} {id : PlotId} {x z : Int32}

/-- Around a column that the area does not claim nobody counts as merged. -/
theorem isMerged_of_unclaimed (hclaims : g.claims a.bounds x z = false) (haround : g.Around x z id)
    (d : Direction) : a.isMerged m id d = false := by
  rw [← Bool.not_eq_true]
  intro hmerged
  have := claims_of_around haround (contains_of_isMerged hmerged)
  rw [hclaims] at this
  exact Bool.false_ne_true this

/-- **Without merges around it a column is what it is by geometry.** In an area whose period fits,
every column has a plain ground and it is answered whether the area claims it. The column is the
same plot, wall or road under merges in which none of the plots around it counts as merged: those of
its cell, and in a gap also of the cell behind it. So it is where nobody is merged at all, and under
any merges where the area does not claim the column. -/
theorem mergedGround_unmerged (a : Area) (m : Merges)
    (hfits : Fits (a.plotSize.toInt + a.roadWidth.toInt)) (x z : Int32) :
    ∃ g ground claimed, a.grid = .ok g ∧ a.ground x z = .ok ground ∧
      a.isClaimed x z = .ok claimed ∧
      ((∀ id, g.Around x z id → ∀ d, a.isMerged m id d = false) →
        a.mergedGround m x z = .ok ground) ∧
      a.mergedGround .none x z = .ok ground ∧
      (claimed = false → a.mergedGround m x z = .ok ground) := by
  obtain ⟨g, hg, -⟩ := exists_grid hfits
  obtain ⟨ground, hground⟩ := g.ground_total x z
  refine ⟨g, ground, g.claims a.bounds x z, hg, ?_, isClaimed_eq_of_grid hg x z, ?_, ?_, ?_⟩
  · rw [ground_eq_of_grid hg, hground]
  · intro h
    rw [mergedGround_eq_of_grid hg, Grid.mergedGround_eq_ground h, hground]
  · have hnone (id : PlotId) (d : Direction) : a.isMerged .none id d = false := by
      simp [isMerged, Merges.none]
    rw [mergedGround_eq_of_grid hg, Grid.mergedGround_eq_ground fun id _ => hnone id, hground]
  · intro hclaims
    rw [mergedGround_eq_of_grid hg,
      Grid.mergedGround_eq_ground fun id => isMerged_of_unclaimed hclaims, hground]

/-- Two plots are merged of which the bounds hold only one. -/
def overTheEdge : Merges := .ofSides [(⟨-1, 0⟩, .east), (⟨0, 0⟩, .west)]

/-- Every plot is merged towards every side. -/
def everywhere : Merges := fun _ => .ofFlags true true true true

theorem isMerged_overTheEdge (id : PlotId) (d : Direction) :
    fenced.isMerged overTheEdge id d = false := by
  have hsides : ∀ side ∈ [((⟨-1, 0⟩ : PlotId), Direction.east), (⟨0, 0⟩, .west)],
      (fenced.contains side.1 && fenced.contains (side.1.neighbor side.2)) = false := by decide
  rw [isMerged, overTheEdge, Merges.contains_ofSides, Bool.and_assoc]
  by_cases hside : (id, d) ∈ [((⟨-1, 0⟩ : PlotId), Direction.east), (⟨0, 0⟩, .west)]
  · rw [hsides _ hside, Bool.and_false]
  · rw [decide_eq_false hside, Bool.false_and]

/-- A wall of the plot in bounds, and a corner beyond them. -/
theorem mergedGround_unmerged_fenced :
    Fits (fenced.plotSize.toInt + fenced.roadWidth.toInt) ∧
      ((∀ id d, fenced.isMerged overTheEdge id d = false) ∧
        fenced.mergedGround overTheEdge 3 10 = .ok (.wall ⟨0, 0⟩ (.edge .west))) ∧
      fenced.isClaimed 114 120 = .ok false ∧
        fenced.mergedGround everywhere 114 120 = .ok (.wall ⟨2, 3⟩ (.corner .east .north)) := by
  have hinside : fenced.ground 3 10 = .ok (.wall ⟨0, 0⟩ (.edge .west)) := rfl
  have houtside : fenced.ground 114 120 = .ok (.wall ⟨2, 3⟩ (.corner .east .north)) := rfl
  have hunclaimed : fenced.isClaimed 114 120 = .ok false := rfl
  refine ⟨by decide, ⟨isMerged_overTheEdge, ?_⟩, hunclaimed, ?_⟩
  · obtain ⟨g, ground, claimed, -, hground, -, hsame, -⟩ :=
      mergedGround_unmerged fenced overTheEdge (by decide) 3 10
    cases hinside.symm.trans hground
    exact hsame fun id _ => isMerged_overTheEdge id
  · obtain ⟨g, ground, claimed, -, hground, hclaimed, -, -, hsame⟩ :=
      mergedGround_unmerged fenced everywhere (by decide) 114 120
    cases houtside.symm.trans hground
    cases hunclaimed.symm.trans hclaimed
    exact hsame rfl

end Area

end Cadastre
