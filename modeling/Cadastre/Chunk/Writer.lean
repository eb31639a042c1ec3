import Cadastre.Chunk
/-!
# Cadastre.Chunk.Writer

**Whatever takes blocks and biomes**: a chunk itself, or something around one.

A writer must take a block and a biome at local coordinates. Clearing a column is writing air at all
its heights, unless the writer knows a shorter way.
-/

namespace Cadastre

/-- A state that takes blocks and biomes at local coordinates. -/
class ChunkWriter (σ : Type) where
  setBlock (x y z : Int) (b : Block) : Edit σ Unit
  setBiome (x z : Int) (biome : Int32) : Edit σ Unit
  clearColumn (x z : Int) : Edit σ Unit :=
    (List.range worldHeight).forM fun y => setBlock x y z .air

namespace Chunk

/-- Puts a block at local coordinates. -/
def setBlock (x y z : Int) (b : Block) : Edit Chunk Unit := do
  let p ← place x y z
  modify (·.put p b)

/-- Sets the biome of the column at local coordinates. -/
def setBiome (x z : Int) (biome : Int32) : Edit Chunk Unit := do
  let col ← column x z
  modify (·.putBiome col biome)

/-- Clears the column at local coordinates, in the sections that exist. -/
def clearColumn (x z : Int) : Edit Chunk Unit := do
  let col ← column x z
  modify (·.clear col)

instance : ChunkWriter Chunk := ⟨setBlock, setBiome, clearColumn⟩

/-- The block at local coordinates; `none` outside the chunk. -/
def block? (c : Chunk) (x y z : Int) : Option Block := (place x y z).toOption.map c.block

/-- The biome of the column at local coordinates; `none` outside the chunk too. -/
def biome? (c : Chunk) (x z : Int) : Option Int32 := (column x z).toOption.bind c.biome

/-- The height of the highest block of the column at local coordinates. -/
def highest? (c : Chunk) (x z : Int) : Option (Fin worldHeight) :=
  (column x z).toOption.bind c.highest

end Chunk

end Cadastre
