import Cadastre.Proofs.Merge.Crossing
/-!
# Cadastre.Proofs.Grid.Queries

**When an area answers.** The settings of an area are checked one by one, so the plot size and the
road width may each be fine and their sum too large. That sum, the period, is computed first in
every question about the layout but one, and it is the only computation on the way that can leave
its range. So `Area.queries_answered` says exactly which questions are answered: all, where the
period is a 32-bit number, and otherwise only whether an area without bounds claims a column.
-/

namespace Cadastre

/-- A question about the layout of an area. -/
inductive Query
  | period
  | bands (x z : Int32)
  | ground (x z : Int32)
  | mergedGround (m : Merges) (x z : Int32)
  | claimed (x z : Int32)
  | cellOrigin (id : PlotId)
  | plotBottom (id : PlotId)
  | plotTop (id : PlotId)

namespace Query

/-- What a question is answered with. -/
def Answer : Query → Type
  | period => Int32
  | bands _ _ => Band × Band
  | ground _ _ | mergedGround _ _ _ => Ground
  | claimed _ _ => Bool
  | cellOrigin _ | plotBottom _ | plotTop _ => Int32 × Int32

/-- Asks an area. -/
def ask (a : Area) : (q : Query) → Except Failure q.Answer
  | period => a.period
  | bands x z => do let g ← a.grid; return (g.bandX x, g.bandZ z)
  | ground x z => a.ground x z
  | mergedGround m x z => a.mergedGround m x z
  | claimed x z => a.isClaimed x z
  | cellOrigin id => do return (← a.grid).cellOrigin id
  | plotBottom id => do return (← a.grid).plotBottom id
  | plotTop id => do return (← a.grid).plotTop id

/-- Whether the period of an area is computed to answer a question. Only an area without bounds
knows without it what it claims. -/
def needsPeriod (a : Area) : Query → Bool
  | claimed _ _ => a.bounds.isSome
  | _ => true

end Query

/-- Every column of a grid has a ground, also by geometry alone. -/
theorem Grid.ground_total (g : Grid) (x z : Int32) : ∃ ground, g.ground x z = .ok ground :=
  ⟨_, Ground.ofBands_eq (g.sound_band g.offsetX x) (g.sound_band g.offsetZ z)⟩

namespace Area

variable {a : Area}

/-- An area with a grid answers every question. -/
theorem exists_answer {g : Grid} (hg : a.grid = .ok g) (q : Query) :
    ∃ answer, q.ask a = .ok answer := by
  have hperiod : Fits (a.plotSize.toInt + a.roadWidth.toInt) := by
    unfold grid at hg
    split at hg
    · assumption
    · cases hg
  cases q with
  | period => exact ⟨_, if_pos hperiod⟩
  | ground x z =>
      obtain ⟨ground, hground⟩ := g.ground_total x z
      exact ⟨ground, (ground_eq_of_grid hg x z).trans hground⟩
  | mergedGround m x z =>
      obtain ⟨ground, hground⟩ := g.exists_mergedGround (a.isMerged m) x z
      exact ⟨ground, (mergedGround_eq_of_grid hg m x z).trans hground⟩
  | claimed x z => exact ⟨_, isClaimed_eq_of_grid hg x z⟩
  | bands x z | cellOrigin id | plotBottom id | plotTop id =>
      simp only [Query.ask, hg]
      exact ⟨_, rfl⟩

/-- Where the period is too large, computing it is as far as an area gets. -/
theorem ask_of_not_fits (h : ¬Fits (a.plotSize.toInt + a.roadWidth.toInt)) (q : Query) :
    if q.needsPeriod a then q.ask a = .error (.abort (.overflow .add))
    else ∃ answer, q.ask a = .ok answer := by
  have hgrid : a.grid = .error (.abort (.overflow .add)) := dif_neg h
  cases q with
  | period => exact if_neg h
  | claimed x z =>
      rcases hbounds : a.bounds with _ | bounds
      · have hall : a.isClaimed x z = .ok true := by simp only [isClaimed, hbounds]
        rw [if_neg (by simp [Query.needsPeriod, hbounds])]
        exact ⟨true, hall⟩
      · rw [if_pos (by simp [Query.needsPeriod, hbounds])]
        simp only [Query.ask, isClaimed, hbounds, hgrid]
        rfl
  | bands x z | ground x z | mergedGround m x z | cellOrigin id | plotBottom id | plotTop id =>
      simp only [Query.needsPeriod, Query.ask, ground, mergedGround, hgrid]
      rfl

/-- **Which questions an accepted area answers.** All of them, for every column, every plot and all
merges, exactly if the plot size and the road width of its settings add up to a 32-bit number.
Otherwise a question is answered exactly if it needs no period. And the overflow of that sum is the
only failure there is. -/
theorem queries_answered {world : String} {s : Settings} (h : ofSettings world s = .ok a) :
    ((∀ q : Query, ∃ answer, q.ask a = .ok answer) ↔
        Fits (s.plotSize.toInt + s.roadWidth.toInt)) ∧
      (∀ q : Query, (∃ answer, q.ask a = .ok answer) ↔
        Fits (s.plotSize.toInt + s.roadWidth.toInt) ∨ q.needsPeriod a = false) ∧
      ∀ (q : Query) (e : Failure), q.ask a = .error e → e = .abort (.overflow .add) := by
  obtain ⟨-, hsize, hwidth⟩ := ofSettings_measures h
  rw [← hsize, ← hwidth]
  by_cases hfits : Fits (a.plotSize.toInt + a.roadWidth.toInt)
  · obtain ⟨g, hg, -⟩ := exists_grid hfits
    have hall := exists_answer hg
    refine ⟨iff_of_true hall hfits, fun q => iff_of_true (hall q) (.inl hfits), fun q e he => ?_⟩
    obtain ⟨answer, hok⟩ := hall q
    rw [hok] at he
    cases he
  · have hcut := ask_of_not_fits hfits
    refine ⟨iff_of_false (fun hall => ?_) hfits, fun q => ?_, fun q e he => ?_⟩
    · obtain ⟨answer, hok⟩ := hall .period
      exact nomatch hok.symm.trans (hcut .period)
    · have hq := hcut q
      cases hneeds : q.needsPeriod a with
      | false => exact iff_of_true (by simpa [hneeds] using hq) (.inr rfl)
      | true =>
          rw [hneeds, if_pos rfl] at hq
          refine iff_of_false (fun ⟨answer, hok⟩ => nomatch hok.symm.trans hq) ?_
          simp [hfits]
    · have hq := hcut q
      split at hq
      · exact (Except.error.inj (hq.symm.trans he)).symm
      · obtain ⟨answer, hok⟩ := hq
        exact nomatch hok.symm.trans he

/-- The largest plots that leave room for the roads of the default settings. -/
theorem queries_answered_largest :
    ∃ a, ofSettings "plotworld" { plotSize := 2147483640 } = .ok a ∧
      ∀ q : Query, ∃ answer, q.ask a = .ok answer :=
  ⟨_, rfl, (queries_answered
    (show ofSettings "plotworld" { plotSize := 2147483640 } = .ok _ from rfl)).1.mpr (by decide)⟩

/-- **Settings that are accepted and cannot be laid out**: the largest plot size there is, with the
roads of the default settings. -/
theorem accepted_without_period :
    ∃ a, ofSettings "plotworld" { plotSize := 2147483647 } = .ok a ∧
      a.isClaimed 0 0 = .ok true ∧ a.ground 0 0 = .error (.abort (.overflow .add)) :=
  ⟨_, rfl, rfl, rfl⟩

end Area

end Cadastre
