import Cadastre.Chunk
/-!
# Cadastre.Chunk.Encoding

The **bytes of a chunk**.

A chunk is its coordinates, a mask of the sections that exist, those sections from the lowest up,
and the biomes of all columns with -1 for one that is not set. A section is its block count, the
width of its indices, its palette and the words of its storage. Numbers of a fixed size have their
highest byte first; lengths and palette entries take seven bits to a byte, the lowest bits first,
and every byte but the last has its high bit set.
-/

namespace Cadastre

namespace Bytes

/-- The lowest `size` bytes of a number, the highest first. -/
def bigEndian (size n : Nat) : List UInt8 :=
  (List.range size).map fun i => (n >>> (8 * (size - 1 - i))).toUInt8

/-- A number in groups of seven bits. -/
def grouped (n : Nat) : List UInt8 :=
  if n < 128 then [n.toUInt8] else (128 + n % 128).toUInt8 :: grouped (n / 128)

/-- A 32-bit number in two's complement. -/
def int32 (n : Int32) : List UInt8 := bigEndian 4 n.toUInt32.toNat

end Bytes

open Bytes

/-- The bytes of a section. -/
def Section.bytes (s : Section) : List UInt8 :=
  bigEndian 2 s.blockCount ++ bigEndian 1 s.indices.width
    ++ grouped s.palette.size ++ s.palette.toList.flatMap (fun b => grouped b.id.toNat)
    ++ grouped s.indices.words.size
    ++ s.indices.words.toList.flatMap (fun word => bigEndian 8 word.toNat)

namespace Chunk

/-- One bit for each section that exists, the lowest section in the lowest bit. -/
def mask (c : Chunk) : Nat :=
  c.sections.toList.foldr (fun s n => (if s.isSome then 1 else 0) + 2 * n) 0

/-- The bytes of a chunk. -/
def bytes (c : Chunk) : List UInt8 :=
  int32 c.coord.x ++ int32 c.coord.z ++ bigEndian 2 c.mask
    ++ c.allocated.flatMap Section.bytes
    ++ c.biomes.toList.flatMap (fun biome => int32 (biome.getD (-1)))

end Chunk

end Cadastre
