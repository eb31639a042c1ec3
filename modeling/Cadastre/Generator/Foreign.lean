import Cadastre.Chunk.Writer
/-!
# Cadastre.Generator.Foreign

**Foreign generators**: terrain that the library does not control.

A foreign generator is asked for one chunk at a time. It may deliver any chunk, refuse in words of
its own, or break down. `Foreign.flat` is one that always delivers: bedrock, stone, dirt and a grass
top.
-/

namespace Cadastre

/-- What a foreign generator answers. -/
inductive Delivery
  | chunk (c : Chunk)
  | refusal (text : String)
  /-- The generator broke down. -/
  | breakdown

/-- A terrain generator beyond the library's control, with a state of type `σ`. -/
structure Foreign (σ : Type) where
  name : String
  generate : String → ChunkCoord → σ → Delivery × σ
  canSpawn : String → Int32 → Int32 → Bool := fun _ _ _ => true
  structures : Bool := false
  decorations : Bool := false

namespace Foreign

/-- The height of flat ground for a height that is asked for: the nearest that leaves bedrock below
and lies inside the world. -/
def flatHeight (n : Int32) : Nat := min (max n.toInt.toNat 1) (worldHeight - 1)

/-- The layers of flat ground, from bedrock up. -/
def flatLayers (height : Nat) : List Block :=
  .bedrock :: (List.range' 1 (height - 1)).map (fun y => if height ≤ y + 3 then .dirt else .stone)
    ++ [.grass]

/-- A chunk of flat ground. -/
def flatChunk (height : Nat) (biome : Int32) (coord : ChunkCoord) : Chunk :=
  Column.all.foldl (fun c col =>
    let filled := (flatLayers height).zipIdx.foldl (fun c (b, y) =>
      if h : y < worldHeight then c.put (col.atHeight ⟨y, h⟩) b else c) c
    filled.putBiome col biome) (.empty coord)

/-- The generator of flat ground. -/
def flat {σ : Type} (height biome : Int32) : Foreign σ where
  name := "flat"
  generate _ coord s := (.chunk (flatChunk (flatHeight height) biome coord), s)
  decorations := true

end Foreign

end Cadastre
