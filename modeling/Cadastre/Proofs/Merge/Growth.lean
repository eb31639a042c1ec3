import Cadastre.Proofs.Merge.Crossing
import Mathlib.Order.Basic
/-!
# Cadastre.Proofs.Merge.Growth

**Merging only opens ground.** Of the kinds of ground, road is below wall and wall below plot
(`Kind`). With more flags set than before no column goes down: plot ground stays plot ground, and a
wall stays the wall it was or becomes plot (`Area.mergedGround_grows`).

One more flag can take a column from one branch of the decision to another, with other owners and
conditions. So two grounds are compared as a whole (`Ground.Grows`): anything may become plot,
whoever owns it, road may become anything, and a wall becomes no other wall. Flags may be set on one
side only; nothing here needs that neighbours agree.
-/

namespace Cadastre

/-! ### Kinds of ground -/

/-- What a column is, without its owner. -/
inductive Kind
  | road
  | wall
  | plot
  deriving DecidableEq, Repr

namespace Kind

def rank : Kind → Nat
  | road => 0
  | wall => 1
  | plot => 2

theorem rank_injective : Function.Injective rank := by
  intro k k' h
  cases k <;> cases k' <;> first | rfl | cases h

/-- Road is below wall, and wall below plot. -/
instance : LinearOrder Kind := LinearOrder.lift' rank rank_injective

theorem road_le (k : Kind) : road ≤ k := Nat.zero_le k.rank

theorem le_plot (k : Kind) : k ≤ plot := by
  cases k <;> decide

end Kind

namespace Ground

/-- The kind of a ground. -/
def kind : Ground → Kind
  | road => .road
  | wall _ _ => .wall
  | plot _ => .plot

/-- What may become of a ground when more flags are set. -/
inductive Grows : Ground → Ground → Prop
  | same (ground : Ground) : Grows ground ground
  | fromRoad (ground : Ground) : Grows road ground
  | toPlot (ground : Ground) (id : PlotId) : Grows ground (plot id)

namespace Grows

variable {ground ground' : Ground}

theorem kind_le (h : Grows ground ground') : ground.kind ≤ ground'.kind := by
  cases h with
  | same => exact le_rfl
  | fromRoad => exact ground'.kind.road_le
  | toPlot => exact ground.kind.le_plot

/-- A wall becomes no other wall. -/
theorem eq_of_wall (h : Grows ground ground') (hwall : ground.kind = .wall)
    (hwall' : ground'.kind = .wall) : ground' = ground := by
  cases h with
  | same => rfl
  | fromRoad => cases hwall
  | toPlot => cases hwall'

end Grows

end Ground

/-- One flag that decides between plot and what is there otherwise. -/
theorem Ground.grows_of_flag {flag flag' : Bool} (hflag : flag = true → flag' = true) {id : PlotId}
    {other : Except Failure Ground} {ground ground' : Ground}
    (h : (if flag then .ok (plot id) else other) = .ok ground)
    (h' : (if flag' then .ok (plot id) else other) = .ok ground') : ground.Grows ground' := by
  cases flag' with
  | true =>
      cases h'
      exact .toPlot ground id
  | false =>
      cases flag with
      | true => exact absurd (hflag rfl) Bool.false_ne_true
      | false =>
          cases h.symm.trans h'
          exact .same ground

/-! ### More flags -/

/-- A state is among another if it has none but the other's directions. -/
instance : HasSubset MergeState := ⟨fun s t => ∀ d, s.contains d = true → t.contains d = true⟩

/-- The bounds of an area let more flags count if more are set. -/
theorem Area.isMerged_of_subset (a : Area) {m m' : Merges} (hmore : ∀ id, m id ⊆ m' id)
    {id : PlotId} {d : Direction} (h : a.isMerged m id d = true) : a.isMerged m' id d = true := by
  simp only [isMerged, Bool.and_eq_true] at h ⊢
  exact ⟨⟨hmore id d h.1.1, h.1.2⟩, h.2⟩

section Growth

variable {merged merged' : PlotId → Direction → Bool}
  (hmore : ∀ id d, merged id d = true → merged' id d = true)

include hmore

namespace Crossing

theorem isFull_of_more {k : Crossing} (h : k.isFull merged = true) : k.isFull merged' = true := by
  simp only [isFull, Bool.and_eq_true] at h ⊢
  obtain ⟨⟨⟨hae, has⟩, hbs⟩, hce⟩ := h
  exact ⟨⟨⟨hmore _ _ hae, hmore _ _ has⟩, hmore _ _ hbs⟩, hmore _ _ hce⟩

/-- A wall line that goes on across the road goes on, or the ground that it kept apart is opened. -/
theorem grows_line (first second : PlotId) (along facing : Direction) :
    (line merged first second along facing).Grows (line merged' first second along facing) := by
  by_cases halong : merged first along = true
  · by_cases hfacing : merged' first facing = true ∧ merged' second facing = true
    · simp only [line, hmore _ _ halong, hfacing.1, hfacing.2]
      exact .toPlot _ first
    · have hfacing' : ¬(merged first facing = true ∧ merged second facing = true) :=
        fun h => hfacing ⟨hmore _ _ h.1, hmore _ _ h.2⟩
      rw [← Bool.and_eq_true] at hfacing hfacing'
      simp only [line, halong, hmore _ _ halong, if_neg hfacing, if_neg hfacing']
      exact .same _
  · rw [Bool.not_eq_true] at halong
    simp only [line, halong]
    exact .fromRoad _

/-- A corner stays, or the ground behind it is opened. -/
theorem grows_corner (owner : PlotId) (facingX facingZ : Direction) :
    (corner merged owner facingX facingZ).Grows (corner merged' owner facingX facingZ) := by
  by_cases hfacing : merged' owner facingX = true ∧ merged' owner facingZ = true
  · simp only [corner, hfacing.1, hfacing.2]
    exact .toPlot _ owner
  · have hfacing' : ¬(merged owner facingX = true ∧ merged owner facingZ = true) :=
      fun h => hfacing ⟨hmore _ _ h.1, hmore _ _ h.2⟩
    rw [← Bool.and_eq_true] at hfacing hfacing'
    simp only [corner, if_neg hfacing, if_neg hfacing']
    exact .same _

/-- Where two gaps cross, more flags only open ground. -/
theorem grows_ground (k : Crossing) (p q : GapPart) :
    (k.ground merged p q).Grows (k.ground merged' p q) := by
  by_cases hfull' : k.isFull merged' = true
  · have hplot : k.ground merged' p q = .plot k.a := if_pos hfull'
    rw [hplot]
    exact .toPlot _ k.a
  · -- No crossing is full before or after, so each place is decided by its own wall line or corner.
    have hfull : ¬k.isFull merged = true := mt (isFull_of_more hmore) hfull'
    unfold ground
    rw [if_neg hfull, if_neg hfull']
    cases p <;> cases q
    case road.road => exact .same _
    case road.low | road.high | low.road | high.road => exact grows_line hmore _ _ _ _
    case low.low | low.high | high.low | high.high => exact grows_corner hmore _ _ _

end Crossing

namespace Ground

/-- With sound bands a column has a ground before and after, and more flags only open it. -/
theorem grows_ofBandsMerged {bx bz : Band} (hx : bx.Sound) (hz : bz.Sound) :
    ∃ ground ground', ofBandsMerged merged bx bz = .ok ground ∧
      ofBandsMerged merged' bx bz = .ok ground' ∧ ground.Grows ground' := by
  obtain ⟨ground, hground⟩ : ∃ ground, ofBandsMerged merged bx bz = .ok ground :=
    exists_ofBandsMerged hx hz
  obtain ⟨ground', hground'⟩ : ∃ ground', ofBandsMerged merged' bx bz = .ok ground' :=
    exists_ofBandsMerged hx hz
  refine ⟨ground, ground', hground, hground', ?_⟩
  cases bx with
  | body x =>
      cases bz with
      | body z =>
          cases hground.symm.trans hground'
          exact .same _
      | gap k q =>
          rw [ofBandsMerged_body_gap] at hground hground'
          exact grows_of_flag (hmore _ _) hground hground'
  | gap n p =>
      cases bz with
      | body z =>
          rw [ofBandsMerged_gap_body] at hground hground'
          exact grows_of_flag (hmore _ _) hground hground'
      | gap k q =>
          cases hground
          cases hground'
          exact Crossing.grows_ground hmore _ p q

end Ground

end Growth

namespace Area

/-- **Merging only opens ground.** In an area whose period fits, let the flags of every plot be among
those that it has in other merges. Then every column has a ground under both, and the kind of the
ground does not go down from the one to the other: plot ground stays plot ground, and a wall does
not become road. Where it stays a wall it is the same part of the same plot's wall. -/
theorem mergedGround_grows (a : Area) (m m' : Merges)
    (hfits : Fits (a.plotSize.toInt + a.roadWidth.toInt)) (hmore : ∀ id, m id ⊆ m' id)
    (x z : Int32) :
    ∃ ground ground', a.mergedGround m x z = .ok ground ∧ a.mergedGround m' x z = .ok ground' ∧
      ground.kind ≤ ground'.kind ∧
      (ground.kind = .wall → ground'.kind = .wall → ground' = ground) := by
  obtain ⟨g, hg, -⟩ := exists_grid hfits
  obtain ⟨ground, ground', hground, hground', hgrows⟩ :=
    Ground.grows_ofBandsMerged (fun _ _ => a.isMerged_of_subset hmore)
      (g.sound_band g.offsetX x) (g.sound_band g.offsetZ z)
  rw [mergedGround_eq_of_grid hg, mergedGround_eq_of_grid hg]
  exact ⟨ground, ground', hground, hground', hgrows.kind_le, hgrows.eq_of_wall⟩

/-- Two plots are merged over the road between them. -/
def twins : Merges := .ofSides [(⟨0, 0⟩, .east), (⟨1, 0⟩, .west)]

/-- The same two plots, and each seam of their crossing merged from the plot before it. -/
def twinsAndSeams : Merges := .ofSides
  [(⟨0, 0⟩, .east), (⟨1, 0⟩, .west), (⟨0, 0⟩, .south), (⟨1, 0⟩, .south), (⟨0, 1⟩, .east)]

theorem twins_subset (id : PlotId) : twins id ⊆ twinsAndSeams id := by
  intro d hd
  rw [twins, Merges.contains_ofSides, decide_eq_true_eq] at hd
  rw [twinsAndSeams, Merges.contains_ofSides, decide_eq_true_eq]
  exact List.mem_append_left [(⟨0, 0⟩, .south), (⟨1, 0⟩, .south), (⟨0, 1⟩, .east)] hd

/-- A corner of a plot that is merged with nobody becomes plot, and another plot's. -/
theorem mergedGround_grows_corner :
    Fits (standard.plotSize.toInt + standard.roadWidth.toInt) ∧
      (∀ id, twins id ⊆ twinsAndSeams id) ∧
      standard.mergedGround twins 42 42 = .ok (.wall ⟨1, 1⟩ (.corner .west .north)) ∧
      standard.mergedGround twinsAndSeams 42 42 = .ok (.plot ⟨0, 0⟩) ∧ Kind.wall ≤ Kind.plot := by
  have hbefore :
      standard.mergedGround twins 42 42 = .ok (.wall ⟨1, 1⟩ (.corner .west .north)) := rfl
  have hafter : standard.mergedGround twinsAndSeams 42 42 = .ok (.plot ⟨0, 0⟩) := rfl
  obtain ⟨ground, ground', hground, hground', hle, -⟩ :=
    mergedGround_grows standard twins twinsAndSeams (by decide) twins_subset 42 42
  cases hbefore.symm.trans hground
  cases hafter.symm.trans hground'
  exact ⟨by decide, twins_subset, hbefore, hafter, hle⟩

end Area

end Cadastre
