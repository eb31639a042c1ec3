import Cadastre.Chunk.Writer
import Cadastre.Merge
/-!
# Cadastre.Layout

The **layout of an area in a chunk**: which columns the area builds, and the layers of each.

Design points:

* The area builds a column if it claims it and, under its terrain mode, owns what the column is.
* A column is a layer of bedrock where the area has bedrock, then `Strata`: a filling and one layer
  on top. A road is filled and topped with the same bucket.
* Where the chunk may hold something already, each column is cleared before it is built.
-/

namespace Cadastre

/-- What happens to the columns that an area builds. -/
inductive Fill
  /-- The chunk is fresh, and columns are written as they are. -/
  | fresh
  /-- The chunk holds something, and columns are cleared first. -/
  | overwrite
  deriving DecidableEq, Repr

/-- The layers of a column above bedrock: filling up to below the top, and the top. -/
structure Strata where
  filling : Bucket
  top : Bucket
  height : Height

namespace Area

/-- Whether the area owns a column under its terrain mode. -/
def owns (a : Area) (ground : Ground) : Bool :=
  match a.terrain, ground with
  | _, .plot _ => true
  | .nothing, _ => true
  | .roads, .wall _ _ => true
  | _, _ => false

/-- The layers of a column. -/
def strata (a : Area) : Ground → Strata
  | .plot _ => ⟨a.main, a.floor, a.plotHeight⟩
  | .road => ⟨a.road, a.road, a.roadHeight⟩
  | .wall _ _ => ⟨a.wallFilling, a.wallBorder, a.wallHeight⟩

variable {σ : Type} [ChunkWriter σ]

/-- Writes the layers of a column from bedrock up. The world column decides what buckets give. -/
def buildColumn (a : Area) (ground : Ground) (worldX worldZ : Int32) (x z : Int) : Edit σ Unit := do
  let write (y : Nat) (bucket : Bucket) : Edit σ Unit :=
    ChunkWriter.setBlock x y z (bucket.pick worldX (Int32.ofNat y) worldZ)
  if a.bedrock then ChunkWriter.setBlock x 0 z Block.bedrock
  let s := a.strata ground
  (List.range' 1 (s.height - 1)).forM fun y => write y s.filling
  write s.height s.top

/-- Builds a column as what it is: cleared where the chunk may hold something, then the layers, then
the biome, which an area of roads leaves alone. -/
def writeColumn (a : Area) (coord : ChunkCoord) (fill : Fill) (col : Column) (ground : Ground) :
    Edit σ Unit := do
  if fill = .overwrite then ChunkWriter.clearColumn col.x col.z
  a.buildColumn ground (col.worldX coord) (col.worldZ coord) col.x col.z
  if a.terrain ≠ .roads then ChunkWriter.setBiome col.x col.z a.biome

/-- Builds one column of a chunk if the area claims and owns it, and says whether it does. -/
def buildIfOwned (a : Area) (g : Grid) (m : Merges) (coord : ChunkCoord) (fill : Fill)
    (col : Column) : Edit σ Bool := do
  if !g.claims a.bounds (col.worldX coord) (col.worldZ coord) then return false
  let ground ← (g.mergedGround (a.isMerged m) (col.worldX coord) (col.worldZ coord) :
    Except Failure Ground)
  if !a.owns ground then return false
  a.writeColumn coord fill col ground
  return true

/-- Builds the area's columns of a chunk, row by row, and counts them. -/
def buildInto (a : Area) (coord : ChunkCoord) (m : Merges) (fill : Fill) : Edit σ Nat := do
  let g ← a.grid
  Column.all.foldlM (fun count col => do
    return if ← a.buildIfOwned g m coord fill col then count + 1 else count) 0

/-- The area's content of a chunk. -/
def chunk (a : Area) (coord : ChunkCoord) (m : Merges) : Except Failure Chunk :=
  match (a.buildInto coord m .fresh).outcome (Chunk.empty coord) with
  | (.ok _, c) => .ok c
  | (.error e, _) => .error e

end Area

end Cadastre
