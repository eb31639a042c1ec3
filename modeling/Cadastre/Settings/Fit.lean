import Cadastre.Settings
/-!
# Cadastre.Settings.Fit

**Fitting an area to a region**: the number of cells and the place of the grid such that the area's
plots lie over the rectangle between two columns.

The number of cells on an axis is the span, counted with one more gap, in periods rounded to the
nearest. What the cells are too long or too short by shifts the first plot.
-/

namespace Cadastre.Settings

/-- The distance of two columns on an axis. -/
def span (a b : Int32) : Except Failure Int32 := do Checked.abs (← Checked.sub a b)

/-- The number of cells that fit a span best, at least one. -/
def cells (roadWidth period span : Int32) : Except Failure Int32 := do
  let columns ← Checked.add (← Checked.add (← Checked.add span 1) roadWidth) (period / 2)
  return max (columns / period) 1

/-- How far the span goes beyond the last plot of a number of cells. -/
def excess (roadWidth period span count : Int32) : Except Failure Int32 := do
  Checked.sub span (← Checked.sub (← Checked.mul count period) roadWidth)

/-- The offset of the grid that puts the first plot at a column. The grid's lines run through the
middle of the roads. -/
def offsetFor (roadWidth start : Int32) : Except Failure Int32 := do
  Checked.add (← Checked.sub start roadWidth) (roadWidth / 2)

/-- Bounds and places an area so that its plots cover the rectangle between two columns. -/
def fit (ax az bx bz : Int32) : Edit Settings Unit := do
  let s ← get
  let period := max (← s.period) 1
  let spanX ← span ax bx
  let spanZ ← span az bz
  let countX ← cells s.roadWidth period spanX
  let countZ ← cells s.roadWidth period spanZ
  let excessX ← excess s.roadWidth period spanX countX
  let excessZ ← excess s.roadWidth period spanZ countZ
  let startX ← Checked.add (min ax bx) excessX
  let startZ ← Checked.add (min az bz) excessZ
  modify fun s => { s with minPlot := some ⟨0, 0⟩, maxPlot := some ⟨countX - 1, countZ - 1⟩ }
  let offsetX ← offsetFor s.roadWidth startX
  modify fun s => { s with roadOffsetX := offsetX }
  let offsetZ ← offsetFor s.roadWidth startZ
  modify fun s => { s with roadOffsetZ := offsetZ }

end Cadastre.Settings
