import Cadastre.Text.Numeral
/-!
# Cadastre.Position

The **coordinates of a plot world**: compass directions, plots (cells of an area's grid) and chunks
(squares of 16 by 16 columns).

Design points:

* Every coordinate is an `Int32`. The grid of plots has no edge of its own, so a step off the end of
  the range wraps around and each plot always has four neighbours.
* Plots and chunks are ordered by `x` first and `z` second. That is the order in which chunks are
  committed, so it belongs to the type.
-/

namespace Cadastre

/-! ### Directions -/

/-- A compass direction. North is towards smaller `z`, east towards larger `x`. -/
inductive Direction
  | north
  | east
  | south
  | west
  deriving DecidableEq, Repr

namespace Direction

/-- The four directions, clockwise from the north. -/
def all : List Direction := [north, east, south, west]

/-- The step of one cell in a direction, along `x` and along `z`. -/
def offset : Direction → Int32 × Int32
  | north => (0, -1)
  | east => (1, 0)
  | south => (0, 1)
  | west => (-1, 0)

/-- The direction that leads back. -/
def opposite : Direction → Direction
  | north => south
  | east => west
  | south => north
  | west => east

/-- The bit that stands for a direction in a set of directions. -/
def bit : Direction → UInt8
  | north => 1
  | east => 2
  | south => 4
  | west => 8

/-- The name of a direction in a document. -/
def name : Direction → String
  | north => "north"
  | east => "east"
  | south => "south"
  | west => "west"

@[simp] theorem opposite_opposite (d : Direction) : d.opposite.opposite = d := by
  cases d <;> rfl

theorem mem_all (d : Direction) : d ∈ all := by
  cases d <;> simp [all]

end Direction

/-! ### Plots -/

/-- A cell of an area's grid. -/
structure PlotId where
  x : Int32
  z : Int32
  deriving DecidableEq, Repr, Inhabited

namespace PlotId

instance : Ord PlotId where
  compare := compareLex (compareOn PlotId.x) (compareOn PlotId.z)

instance : Std.TransOrd PlotId :=
  inferInstanceAs (Std.TransCmp (compareLex (compareOn PlotId.x) (compareOn PlotId.z)))

instance : Std.LawfulEqOrd PlotId where
  eq_of_compare {a b} h := by
    obtain ⟨hx, hz⟩ := (Ordering.then_eq_eq).1 h
    cases a; cases b
    simp only [PlotId.mk.injEq]
    exact ⟨Std.LawfulEqCmp.eq_of_compare hx, Std.LawfulEqCmp.eq_of_compare hz⟩

/-- The plot next to this one. At the end of the range it is the plot at the other end. -/
def neighbor (id : PlotId) (d : Direction) : PlotId :=
  ⟨id.x + d.offset.1, id.z + d.offset.2⟩

/-- The written form of a plot: `x;z`. -/
def text (id : PlotId) : String := numeral id.x.toInt ++ ";" ++ numeral id.z.toInt

/-- A step and the step back lead to the plot itself, at the ends of the range too. -/
@[simp] theorem neighbor_opposite (id : PlotId) (d : Direction) :
    (id.neighbor d).neighbor d.opposite = id := by
  cases d <;> simp [neighbor, Direction.offset, Direction.opposite, Int32.add_assoc]

end PlotId

/-! ### Chunks -/

/-- A square of 16 by 16 columns of the world. -/
structure ChunkCoord where
  x : Int32
  z : Int32
  deriving DecidableEq, Repr, Inhabited

namespace ChunkCoord

instance : Ord ChunkCoord where
  compare := compareLex (compareOn ChunkCoord.x) (compareOn ChunkCoord.z)

instance : Std.TransOrd ChunkCoord :=
  inferInstanceAs (Std.TransCmp (compareLex (compareOn ChunkCoord.x) (compareOn ChunkCoord.z)))

instance : Std.LawfulEqOrd ChunkCoord where
  eq_of_compare {a b} h := by
    obtain ⟨hx, hz⟩ := (Ordering.then_eq_eq).1 h
    cases a; cases b
    simp only [ChunkCoord.mk.injEq]
    exact ⟨Std.LawfulEqCmp.eq_of_compare hx, Std.LawfulEqCmp.eq_of_compare hz⟩

/-- The chunk that holds a column of the world. -/
def containing (x z : Int32) : ChunkCoord := ⟨x >>> 4, z >>> 4⟩

/-- The least `x` of the chunk's columns. Chunks beyond the edge of the world wrap around. -/
def minX (c : ChunkCoord) : Int32 := c.x <<< 4

/-- The least `z` of the chunk's columns. Chunks beyond the edge of the world wrap around. -/
def minZ (c : ChunkCoord) : Int32 := c.z <<< 4

/-- The written form of a chunk: `[x, z]`. -/
def text (c : ChunkCoord) : String :=
  "[" ++ numeral c.x.toInt ++ ", " ++ numeral c.z.toInt ++ "]"

/-- Keys of a world's name and a chunk compare as equal only if they are the same. -/
theorem compareLex_eq_iff {key key' : String × ChunkCoord} :
    compareLex (compareOn Prod.fst) (compareOn Prod.snd) key key' = .eq ↔ key = key' := by
  unfold compareLex compareOn
  rw [Ordering.then_eq_eq, Std.LawfulEqCmp.compare_eq_iff_eq, Std.LawfulEqCmp.compare_eq_iff_eq,
    Prod.ext_iff]

end ChunkCoord

end Cadastre
