import Cadastre.Area
/-!
# Cadastre.Grid

The **grid** of an area: which columns of the world are plot, road and wall.

Design points:

* Each axis repeats with a period of the plot size plus the road width. A period begins with the gap
  before a plot: its first column is the far wall of the plot before, its last column the near wall
  of the plot after, and everything between is road. The rest of the period is plot.
* The grid is shifted by half a road, so the lines `offset + k * period` run through the middle of
  the roads.
* Positions inside the grid are computed in unbounded integers. A `Grid` exists only where a period
  is a 32-bit number, so that the period is the one arithmetic step that can fail for an area.
* `Band` says what one axis makes of a coordinate. All further decisions are made on the two bands
  of a column.
-/

namespace Cadastre

/-- The measures of an area's grid. -/
structure Grid where
  plotSize : Int32
  roadWidth : Int32
  offsetX : Int32
  offsetZ : Int32
  plotSize_pos : 0 < plotSize.toInt
  roadWidth_nonneg : 0 ≤ roadWidth.toInt
  period_fits : Fits (plotSize.toInt + roadWidth.toInt)

/-- The grid of an area, unless a period is too large. -/
def Area.grid (a : Area) : Except Failure Grid :=
  if h : Fits (a.plotSize.toInt + a.roadWidth.toInt) then
    .ok {
      plotSize := a.plotSize
      roadWidth := a.roadWidth
      offsetX := a.roadOffsetX
      offsetZ := a.roadOffsetZ
      plotSize_pos := a.plotSize_pos
      roadWidth_nonneg := a.roadWidth_nonneg
      period_fits := h }
  else .error (.abort (.overflow .add))

/-- The grid of an area has the area's measures. -/
theorem Area.exists_grid {a : Area} (h : Fits (a.plotSize.toInt + a.roadWidth.toInt)) :
    ∃ g, a.grid = .ok g ∧ g.plotSize = a.plotSize ∧ g.roadWidth = a.roadWidth ∧
      g.offsetX = a.roadOffsetX ∧ g.offsetZ = a.roadOffsetZ :=
  ⟨_, dif_pos h, rfl, rfl, rfl, rfl⟩

/-! ### Bands -/

/-- A place inside the gap between two neighbouring plots on one axis. -/
inductive GapPart
  /-- The wall of the plot before the gap. -/
  | low
  | road
  /-- The wall of the plot after the gap. -/
  | high
  deriving DecidableEq, Repr

/-- What a coordinate is on its axis. -/
inductive Band
  /-- Inside the plot of a cell. -/
  | body (cell : Int32)
  /-- In the gap after the plot of a cell. -/
  | gap (previous : Int32) (part : GapPart)
  deriving DecidableEq, Repr

namespace Grid

/-- The edge of a cell. -/
def period (g : Grid) : Int := g.plotSize.toInt + g.roadWidth.toInt

theorem period_pos (g : Grid) : 0 < g.period := by
  have := g.plotSize_pos
  have := g.roadWidth_nonneg
  unfold period
  omega

/-- The part of a gap at a distance from the gap's first column. The near wall comes first where the
gap has a single column. -/
def gapPart (roadWidth place : Int) : GapPart :=
  if place = roadWidth - 1 then .high else if place = 0 then .low else .road

/-- The band of a coordinate on an axis with the given offset. -/
def band (g : Grid) (offset world : Int32) : Band :=
  let shifted := world.toInt - offset.toInt + g.roadWidth.toInt / 2
  let place := shifted % g.period
  let cell := shifted / g.period
  if g.roadWidth.toInt ≤ place then .body (Int32.ofInt cell)
  else .gap (Int32.ofInt (cell - 1)) (gapPart g.roadWidth.toInt place)

def bandX (g : Grid) (x : Int32) : Band := g.band g.offsetX x
def bandZ (g : Grid) (z : Int32) : Band := g.band g.offsetZ z

end Grid

/-- The cell of a band. A gap counts to the cell before it. -/
def Band.cell : Band → Int32
  | body cell => cell
  | gap previous _ => previous

/-! ### Ground -/

/-- A part of the wall around a plot. -/
inductive Segment
  /-- Along one edge of the plot. -/
  | edge (facing : Direction)
  /-- Where two edges meet. -/
  | corner (facingX facingZ : Direction)
  deriving DecidableEq, Repr

/-- What a column of the world is. -/
inductive Ground
  | plot (id : PlotId)
  | road
  /-- Wall of the plot that owns it. -/
  | wall (owner : PlotId) (segment : Segment)
  deriving DecidableEq, Repr

namespace Ground

def isPlot : Ground → Bool
  | plot _ => true
  | _ => false

def isRoad : Ground → Bool
  | road => true
  | _ => false

def isWall : Ground → Bool
  | wall _ _ => true
  | _ => false

/-- The plot of a column that lies inside one. -/
def plot? : Ground → Option PlotId
  | plot id => some id
  | _ => none

/-- The cell that owns a wall across the `x` axis, and the direction that the wall faces. -/
def wallX (previous : Int32) : GapPart → Except Failure (Int32 × Direction)
  | .low => .ok (previous, .east)
  | _ => (·, .west) <$> Checked.add previous 1

/-- The cell that owns a wall across the `z` axis, and the direction that the wall faces. -/
def wallZ (previous : Int32) : GapPart → Except Failure (Int32 × Direction)
  | .low => .ok (previous, .south)
  | _ => (·, .north) <$> Checked.add previous 1

/-- What a column is, from its two bands. Where a road crosses a wall line the road goes on. -/
def ofBands : Band → Band → Except Failure Ground
  | .body x, .body z => .ok (plot ⟨x, z⟩)
  | .gap _ .road, _ => .ok road
  | _, .gap _ .road => .ok road
  | .gap previous part, .body z => do
    let (x, facing) ← wallX previous part
    return wall ⟨x, z⟩ (.edge facing)
  | .body x, .gap previous part => do
    let (z, facing) ← wallZ previous part
    return wall ⟨x, z⟩ (.edge facing)
  | .gap previousX partX, .gap previousZ partZ => do
    let (x, facingX) ← wallX previousX partX
    let (z, facingZ) ← wallZ previousZ partZ
    return wall ⟨x, z⟩ (.corner facingX facingZ)

end Ground

namespace Grid

/-- What a column is by geometry alone. -/
def ground (g : Grid) (x z : Int32) : Except Failure Ground :=
  Ground.ofBands (g.bandX x) (g.bandZ z)

/-! ### Cells -/

/-- The first coordinate of a cell. Cells beyond the range of the world wrap around. -/
def cellStart (g : Grid) (offset cell : Int32) : Int32 :=
  cell * (g.plotSize + g.roadWidth) + offset - g.roadWidth / 2

/-- The first gap column of a plot's cell. -/
def cellOrigin (g : Grid) (id : PlotId) : Int32 × Int32 :=
  (g.cellStart g.offsetX id.x, g.cellStart g.offsetZ id.z)

/-- The lowest column of a plot. -/
def plotBottom (g : Grid) (id : PlotId) : Int32 × Int32 :=
  ((g.cellOrigin id).1 + g.roadWidth, (g.cellOrigin id).2 + g.roadWidth)

/-- The highest column of a plot. -/
def plotTop (g : Grid) (id : PlotId) : Int32 × Int32 :=
  let last := g.plotSize + g.roadWidth - 1
  ((g.cellOrigin id).1 + last, (g.cellOrigin id).2 + last)

/-! ### Claims -/

/-- Whether a band belongs to the cells from `min` to `max`: a plot among them, or a gap on either
side of one. -/
def within (min max : Int32) : Band → Bool
  | .body cell => min ≤ cell && cell ≤ max
  | .gap previous _ => min.toInt - 1 ≤ previous.toInt && previous.toInt ≤ max.toInt

/-- Whether bounds claim a column. Without bounds every column is claimed. -/
def claims (g : Grid) (bounds : Option Bounds) (x z : Int32) : Bool :=
  match bounds with
  | none => true
  | some b => within b.min.x b.max.x (g.bandX x) && within b.min.z b.max.z (g.bandZ z)

end Grid

namespace Area

/-- What a column of the world is by geometry alone. -/
def ground (a : Area) (x z : Int32) : Except Failure Ground := do (← a.grid).ground x z

theorem ground_eq_of_grid {a : Area} {g : Grid} (h : a.grid = .ok g) (x z : Int32) :
    a.ground x z = g.ground x z := by
  rw [ground, h]
  rfl

/-- Whether the area claims a column. An area without bounds claims all, without a look at its
grid. -/
def isClaimed (a : Area) (x z : Int32) : Except Failure Bool :=
  match a.bounds with
  | none => .ok true
  | some bounds => return (← a.grid).claims (some bounds) x z

theorem isClaimed_eq_of_grid {a : Area} {g : Grid} (h : a.grid = .ok g) (x z : Int32) :
    a.isClaimed x z = .ok (g.claims a.bounds x z) := by
  unfold isClaimed
  split
  · rename_i hbounds
    rw [hbounds]
    rfl
  · rename_i bounds hbounds
    rw [hbounds, h]
    rfl

end Area

end Cadastre
