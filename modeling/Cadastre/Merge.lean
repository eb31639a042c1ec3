import Cadastre.Grid
/-!
# Cadastre.Merge

**Merged plots**: which neighbours a plot is fused with, and what the columns of an area become when
plots are fused.

Design points:

* Each plot keeps a set of directions of its own. The sets of two neighbours need not agree.
* The gap between two merged plots becomes plot. Where two plots that are merged share an outer
  edge, the wall line is carried on across the road between them. The crossing of two roads becomes
  plot only when all four plots around it are merged.
* Where two gaps cross, four plots meet: `Crossing.a` to `Crossing.d`, in reading order.
-/

namespace Cadastre

/-- The directions towards which a plot is merged, one bit each. -/
structure MergeState where
  bits : UInt8
  deriving DecidableEq, Repr, Inhabited

namespace MergeState

/-- Merged with no neighbour. -/
def none : MergeState := ⟨0⟩

/-- The directions among four bits; further bits are dropped. -/
def ofBits (bits : UInt8) : MergeState := ⟨bits &&& 15⟩

/-- A state with one more direction. -/
def insert (s : MergeState) (d : Direction) : MergeState := ⟨s.bits ||| d.bit⟩

/-- A state without a direction. -/
def erase (s : MergeState) (d : Direction) : MergeState := ⟨s.bits &&& ~~~d.bit⟩

/-- Whether a plot in this state is merged towards a direction. -/
def contains (s : MergeState) (d : Direction) : Bool := s.bits &&& d.bit != 0

/-- Whether a plot in this state is merged at all. -/
def any (s : MergeState) : Bool := s.bits != 0

/-- The state with the flagged directions among north, east, south and west. -/
def ofFlags (north east south west : Bool) : MergeState :=
  let put (s : MergeState) (flag : Bool) (d : Direction) := if flag then s.insert d else s
  put (put (put (put none north .north) east .east) south .south) west .west

@[simp] theorem contains_none (d : Direction) : none.contains d = false := by
  cases d <;> rfl

theorem contains_ofFlags (north east south west : Bool) (d : Direction) :
    (ofFlags north east south west).contains d =
      match d with
      | .north => north
      | .east => east
      | .south => south
      | .west => west := by
  cases d <;> cases north <;> cases east <;> cases south <;> cases west <;> rfl

end MergeState

/-- The merge state of every plot. -/
abbrev Merges := PlotId → MergeState

/-- Nobody is merged. -/
def Merges.none : Merges := fun _ => .none

namespace Area

/-- Whether a plot counts as merged towards a direction: its state says so and both plots lie in the
area's bounds. -/
def isMerged (a : Area) (m : Merges) (id : PlotId) (d : Direction) : Bool :=
  (m id).contains d && a.contains id && a.contains (id.neighbor d)

/-- Whether the wall of a plot that faces a neighbour disappears. -/
def isWallSuppressed (a : Area) (m : Merges) (owner neighbor : PlotId) (d : Direction) : Bool :=
  owner.neighbor d = neighbor && a.isMerged m owner d

end Area

/-! ### Crossings -/

/-- The four plots around the place where two gaps cross. -/
structure Crossing where
  /-- North-west of the crossing. -/
  a : PlotId
  /-- North-east. -/
  b : PlotId
  /-- South-west. -/
  c : PlotId
  /-- South-east. -/
  d : PlotId

namespace Crossing

/-- The crossing south-east of a plot. -/
def of (a : PlotId) : Crossing :=
  ⟨a, a.neighbor .east, a.neighbor .south, (a.neighbor .east).neighbor .south⟩

@[simp] theorem of_b (x z : Int32) : (of ⟨x, z⟩).b = ⟨x + 1, z⟩ := by
  simp [of, PlotId.neighbor, Direction.offset]

@[simp] theorem of_c (x z : Int32) : (of ⟨x, z⟩).c = ⟨x, z + 1⟩ := by
  simp [of, PlotId.neighbor, Direction.offset]

@[simp] theorem of_d (x z : Int32) : (of ⟨x, z⟩).d = ⟨x + 1, z + 1⟩ := by
  simp [of, PlotId.neighbor, Direction.offset]

/-- Whether all four plots are merged with each other. -/
def isFull (k : Crossing) (merged : PlotId → Direction → Bool) : Bool :=
  merged k.a .east && merged k.a .south && merged k.b .south && merged k.c .east

/-- A column where a wall line that faces `facing` meets the road between two plots. The plots are
`first` and `second`, and `along` leads from one to the other. -/
def line (merged : PlotId → Direction → Bool) (first second : PlotId) (along facing : Direction) :
    Ground :=
  if !merged first along then .road
  else if merged first facing && merged second facing then .plot first
  else .wall first (.edge facing)

/-- A column where two wall lines of one plot meet. -/
def corner (merged : PlotId → Direction → Bool) (owner : PlotId) (facingX facingZ : Direction) :
    Ground :=
  if merged owner facingX && merged owner facingZ then .plot owner
  else .wall owner (.corner facingX facingZ)

/-- What the column at two gap parts is. -/
def ground (k : Crossing) (merged : PlotId → Direction → Bool) (partX partZ : GapPart) : Ground :=
  if k.isFull merged then .plot k.a
  else
    match partX, partZ with
    | .road, .road => .road
    | .road, .low => line merged k.a k.b .east .south
    | .road, .high => line merged k.c k.d .east .north
    | .low, .road => line merged k.a k.c .south .east
    | .high, .road => line merged k.b k.d .south .west
    | .low, .low => corner merged k.a .east .south
    | .high, .low => corner merged k.b .west .south
    | .low, .high => corner merged k.c .east .north
    | .high, .high => corner merged k.d .west .north

end Crossing

namespace Ground

/-- What a column is when plots are merged, from its two bands. -/
def ofBandsMerged (merged : PlotId → Direction → Bool) : Band → Band → Except Failure Ground
  | .body x, .body z => .ok (plot ⟨x, z⟩)
  | .gap previous part, .body z =>
    if merged ⟨previous, z⟩ .east then .ok (plot ⟨previous, z⟩)
    else ofBands (.gap previous part) (.body z)
  | .body x, .gap previous part =>
    if merged ⟨x, previous⟩ .south then .ok (plot ⟨x, previous⟩)
    else ofBands (.body x) (.gap previous part)
  | .gap previousX partX, .gap previousZ partZ =>
    .ok ((Crossing.of ⟨previousX, previousZ⟩).ground merged partX partZ)

theorem ofBandsMerged_gap_body (merged : PlotId → Direction → Bool) (n z : Int32) (p : GapPart) :
    ofBandsMerged merged (.gap n p) (.body z) =
      if merged ⟨n, z⟩ .east then .ok (plot ⟨n, z⟩) else ofBands (.gap n p) (.body z) := rfl

theorem ofBandsMerged_body_gap (merged : PlotId → Direction → Bool) (x n : Int32) (p : GapPart) :
    ofBandsMerged merged (.body x) (.gap n p) =
      if merged ⟨x, n⟩ .south then .ok (plot ⟨x, n⟩) else ofBands (.body x) (.gap n p) := rfl

end Ground

/-- What a column of the world is in an area with a grid when plots are merged. -/
def Grid.mergedGround (g : Grid) (merged : PlotId → Direction → Bool) (x z : Int32) :
    Except Failure Ground :=
  Ground.ofBandsMerged merged (g.bandX x) (g.bandZ z)

/-- What a column of the world is when plots are merged. -/
def Area.mergedGround (a : Area) (m : Merges) (x z : Int32) : Except Failure Ground := do
  (← a.grid).mergedGround (a.isMerged m) x z

theorem Area.mergedGround_eq_of_grid {a : Area} {g : Grid} (h : a.grid = .ok g) (m : Merges)
    (x z : Int32) : a.mergedGround m x z = g.mergedGround (a.isMerged m) x z := by
  rw [mergedGround, h]
  rfl

end Cadastre
