import Cadastre.Text.Blank
/-!
# Cadastre.Block

**Blocks and biomes**: their numbers and their names.

A block is a number of 16 bits. The palette names the first of them; a number beyond the palette has
no name of its own and goes by the name of air.
-/

namespace Cadastre

/-- A kind of block. -/
structure Block where
  id : UInt16
  deriving DecidableEq, Repr, Inhabited

namespace Block

/-- The names of the known blocks, in the order of their numbers. -/
def palette : List String :=
  ["minecraft:air", "minecraft:stone", "minecraft:granite", "minecraft:diorite",
    "minecraft:andesite", "minecraft:grass_block", "minecraft:dirt", "minecraft:cobblestone",
    "minecraft:oak_planks", "minecraft:bedrock", "minecraft:water", "minecraft:lava",
    "minecraft:sand", "minecraft:gravel", "minecraft:gold_block", "minecraft:iron_block",
    "minecraft:diamond_block", "minecraft:quartz_block", "minecraft:smooth_stone",
    "minecraft:stone_slab", "minecraft:smooth_stone_slab", "minecraft:stone_bricks",
    "minecraft:sandstone", "minecraft:glass", "minecraft:white_wool", "minecraft:snow_block",
    "minecraft:clay", "minecraft:terracotta", "minecraft:obsidian", "minecraft:netherrack",
    "minecraft:end_stone", "minecraft:bricks", "minecraft:oak_log", "minecraft:spruce_planks",
    "minecraft:podzol", "minecraft:mycelium", "minecraft:polished_andesite", "minecraft:red_sand",
    "minecraft:black_concrete", "minecraft:white_concrete", "minecraft:dirt_path"]

def air : Block := ⟨0⟩
def stone : Block := ⟨1⟩
def grass : Block := ⟨5⟩
def dirt : Block := ⟨6⟩
def bedrock : Block := ⟨9⟩
def quartz : Block := ⟨17⟩
def stoneSlab : Block := ⟨19⟩

/-- Whether nothing stands where this block is. -/
def isAir (b : Block) : Bool := b.id == 0

/-- The name space of the palette. A name without a colon is taken to lie in it. -/
def nameSpace : String := "minecraft:"

/-- A block's full name. -/
def name (b : Block) : String := palette.getD b.id.toNat "minecraft:air"

/-- The full name that a name as people write it stands for. -/
def fullName (name : String) : String :=
  let key := Text.keyword name
  if ':' ∈ key.toList then key else nameSpace ++ key

/-- The block of a name as people write it, with or without the name space. -/
def ofName? (name : String) : Option Block :=
  (palette.idxOf? (fullName name)).map fun i => ⟨i.toUInt16⟩

theorem isAir_iff {b : Block} : b.isAir = true ↔ b = air := by
  cases b
  simp [isAir, air]

end Block

/-! ### Biomes -/

namespace Biome

/-- The names and numbers of the known biomes. -/
def table : List (String × Int32) :=
  [("ocean", 0), ("plains", 1), ("desert", 2), ("mountains", 3), ("forest", 4), ("taiga", 5),
    ("swamp", 6), ("river", 7), ("beach", 16), ("jungle", 21), ("savanna", 35), ("the_void", 127)]

/-- A biome's name without the name space, which counts only when it is written exactly. -/
def bareName (name : String) : List Char :=
  if Block.nameSpace.toList.isPrefixOf name.toList then
    name.toList.drop Block.nameSpace.toList.length
  else name.toList

/-- The number of a biome. The case of ASCII letters is of no account, a blank is. -/
def id? (name : String) : Option Int32 :=
  table.lookup (String.ofList ((bareName name).map Char.toLower))

end Biome

end Cadastre
