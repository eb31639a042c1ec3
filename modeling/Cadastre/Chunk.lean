import Cadastre.Area
import Cadastre.Section
/-!
# Cadastre.Chunk

**Chunks**: the blocks and biomes of 16 by 16 columns over the whole height of the world.

Design points:

* A section exists from the first block other than air that is put into it. Until then it counts as
  air, and air put into it is not stored.
* A position is a `Place` once it is known to lie in the chunk. Reading and writing at a place
  cannot fail; `place` and `column` are where a position outside is refused.
-/

namespace Cadastre

/-- A column of a chunk. -/
structure Column where
  x : Fin 16
  z : Fin 16
  deriving DecidableEq

/-- A position in a chunk. -/
structure Place where
  x : Fin 16
  y : Fin worldHeight
  z : Fin 16
  deriving DecidableEq

namespace Column

/-- The number of a column in its chunk. -/
def index (c : Column) : Fin 256 := ⟨c.z * 16 + c.x, by omega⟩

/-- The position at a height in a column. -/
def atHeight (c : Column) (y : Fin worldHeight) : Place := ⟨c.x, y, c.z⟩

/-- The number of a column's block in its section, for a height counted from the section's lowest
layer. -/
def number (c : Column) (y : Nat) : Nat := y * 256 + c.z * 16 + c.x

/-- The world coordinate of a column of a chunk along `x`. -/
def worldX (col : Column) (coord : ChunkCoord) : Int32 := coord.minX + Int32.ofNat col.x

/-- The world coordinate of a column of a chunk along `z`. -/
def worldZ (col : Column) (coord : ChunkCoord) : Int32 := coord.minZ + Int32.ofNat col.z

/-- All columns of a chunk, row by row. -/
def all : List Column :=
  (List.finRange 16).flatMap fun z => (List.finRange 16).map fun x => ⟨x, z⟩

end Column

namespace Place

/-- The section of a position, counted from the lowest. -/
def layer (p : Place) : Fin 16 :=
  ⟨p.y / 16, Nat.div_lt_of_lt_mul p.y.isLt⟩

/-- The number of a position in its section. -/
def number (p : Place) : Nat := Column.number ⟨p.x, p.z⟩ (p.y % 16)

end Place

/-- The content of one chunk. -/
structure Chunk where
  coord : ChunkCoord
  sections : Vector (Option Section) 16
  biomes : Vector (Option Int32) 256
  deriving DecidableEq

namespace Chunk

/-- A chunk without content. -/
def empty (coord : ChunkCoord) : Chunk := ⟨coord, .replicate 16 none, .replicate 256 none⟩

instance : Inhabited Chunk := ⟨empty default⟩

/-! ### Positions -/

/-- The column at local coordinates, which must lie in the chunk. -/
def column (x z : Int) : Except Failure Column :=
  if h : (0 ≤ x ∧ x < 16) ∧ (0 ≤ z ∧ z < 16) then
    .ok ⟨⟨x.toNat, by omega⟩, ⟨z.toNat, by omega⟩⟩
  else .error (.error (.misuse x 0 z))

/-- The position at local coordinates, which must lie in the chunk. -/
def place (x y z : Int) : Except Failure Place :=
  if h : (0 ≤ x ∧ x < 16) ∧ (0 ≤ y ∧ y < worldHeight) ∧ (0 ≤ z ∧ z < 16) then
    .ok ⟨⟨x.toNat, by omega⟩, ⟨y.toNat, by omega⟩, ⟨z.toNat, by omega⟩⟩
  else .error (.error (.misuse x y z))

/-! ### Reading -/

/-- The slot of a section, counted from the lowest. -/
def slot (c : Chunk) (i : Fin 16) : Option Section := c.sections[i]

/-- The block at a position. -/
def block (c : Chunk) (p : Place) : Block :=
  match c.slot p.layer with
  | some s => s.block p.number
  | none => .air

/-- The biome of a column, if it was set. -/
def biome (c : Chunk) (col : Column) : Option Int32 := c.biomes[col.index]

/-- The sections that exist, lowest first. -/
def allocated (c : Chunk) : List Section := c.sections.toList.filterMap id

/-- The number of blocks that are not air. -/
def blockCount (c : Chunk) : Nat := c.allocated.foldr (fun s n => s.blockCount + n) 0

/-- Whether a chunk holds neither a block nor a biome. -/
def isEmpty (c : Chunk) : Bool :=
  (c.allocated.all (·.blockCount == 0)) && c.biomes.all Option.isNone

/-- The height at a layer of a section. -/
def height (i layer : Fin 16) : Fin worldHeight :=
  ⟨i * 16 + layer, by unfold worldHeight; omega⟩

/-- The height of a column's highest block in a section that is not air. A section of nothing but
air is not searched. -/
def highestIn (i : Fin 16) (col : Column) : Option Section → Option (Fin worldHeight)
  | some s =>
    if s.blockCount = 0 then none
    else
      ((List.finRange 16).reverse.find? fun y : Fin 16 => !(s.block (col.number y)).isAir).map
        (height i)
  | none => none

/-- The height of the highest block of a column that is not air. -/
def highest (c : Chunk) (col : Column) : Option (Fin worldHeight) :=
  (List.finRange 16).reverse.findSome? fun i => highestIn i col (c.slot i)

/-! ### Writing -/

/-- The chunk with a section changed. -/
def modifySection (c : Chunk) (i : Nat) (f : Option Section → Option Section) : Chunk :=
  { c with sections := ⟨c.sections.toArray.modify i f, by simp⟩ }

/-- What becomes of a section when a block is put at one of its numbers. -/
def putSlot (n : Nat) (b : Block) : Option Section → Option Section
  | some s => some (s.put n b)
  | none => if b.isAir then none else some (Section.empty.put n b)

/-- The chunk with a block at a position. -/
def put (c : Chunk) (p : Place) (b : Block) : Chunk := c.modifySection p.layer (putSlot p.number b)

/-- The chunk with the biome of a column set. -/
def putBiome (c : Chunk) (col : Column) (biome : Int32) : Chunk :=
  { c with biomes := c.biomes.set col.index (some biome) }

/-- A section without the blocks of a column. -/
def clearIn (col : Column) (s : Section) : Section :=
  (List.range 16).foldl (fun s y => s.put (col.number y) .air) s

/-- The chunk without the blocks of a column. -/
def clear (c : Chunk) (col : Column) : Chunk :=
  { c with sections := c.sections.map (Option.map (clearIn col)) }

/-- A section with the blocks of another over its own, air aside. -/
def overlaySection (upper base : Section) : Section :=
  (List.range sectionSize).foldl
    (fun base n => let b := upper.block n; if b.isAir then base else base.put n b) base

/-- What becomes of a section under another. A section of nothing but air adds none. -/
def overlaySlot (upper base : Option Section) : Option Section :=
  match upper with
  | some s => if s.blockCount = 0 then base else some (overlaySection s (base.getD .empty))
  | none => base

/-- The chunk with the blocks and biomes of another over its own. Air and biomes that are not set
cover nothing. -/
def overlay (c upper : Chunk) : Chunk :=
  { c with
    sections := Vector.ofFn fun i => overlaySlot (upper.slot i) (c.slot i)
    biomes := Vector.ofFn fun i => (upper.biomes[i]).or c.biomes[i] }

end Chunk

end Cadastre
