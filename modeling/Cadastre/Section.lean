import Cadastre.Block
import Cadastre.Failure
import Cadastre.Section.Packed
/-!
# Cadastre.Section

**Sections**: cubes of 16 by 16 by 16 blocks, stored as indices into a palette of their own.

Design points:

* The palette begins with air and grows with each block that was not there before. It never shrinks.
  When its indices need more bits, the storage is packed anew with one bit more.
* `block` and `put` are total and meant for the numbers of the section's own blocks. `blockChecked`
  and `putChecked` take any number and are cut off where it lies beyond the storage. The words of a
  storage may have a few places more than there are blocks, and those can be written to.
-/

namespace Cadastre

/-- A cube of blocks. -/
structure Section where
  /-- The number of blocks that are not air. -/
  blockCount : Nat
  palette : Array Block
  indices : Packed
  deriving DecidableEq

namespace Section

/-- The least number of bits of an index. -/
def minWidth : Nat := 4

/-- A section of air. -/
def empty : Section := ⟨0, #[.air], .zeros minWidth⟩

instance : Inhabited Section := ⟨empty⟩

/-- The number of the block at a position, given by words of 64 bits. Positions are not checked, so
one outside the section may share its number with one inside. -/
def number (x y z : UInt64) : Nat := ((y <<< 8) ||| (z <<< 4) ||| x).toNat

/-- The block with a number. -/
def block (s : Section) (n : Nat) : Block := s.palette.getD (s.indices.read n) .air

/-- The section with a block in its palette, and the block's index there. -/
def intern (s : Section) (b : Block) : Section × Nat :=
  match s.palette.idxOf? b with
  | some i => (s, i)
  | none =>
    let i := s.palette.size
    let palette := s.palette.push b
    let indices :=
      if 1 <<< s.indices.width < palette.size then s.indices.repack (s.indices.width + 1)
      else s.indices
    ({ s with palette, indices }, i)

/-- The section after a block was put in the place of another. -/
def replace (s : Section) (n index : Nat) (previous b : Block) : Section :=
  { s with
    indices := s.indices.write n index
    blockCount :=
      if b.isAir then s.blockCount - 1
      else if previous.isAir then s.blockCount + 1
      else s.blockCount }

/-- The section with a block at a number. -/
def put (s : Section) (n : Nat) (b : Block) : Section :=
  let previous := s.block n
  if previous = b then s
  else
    let (s, i) := s.intern b
    s.replace n i previous b

/-- The cut at a number beyond a storage. -/
def outside (p : Packed) (n : Nat) : Failure := .abort (.outside p.words.size (p.wordOf n))

/-- The block with any number. -/
def blockChecked (s : Section) (n : Nat) : Except Failure Block :=
  if s.indices.Has n then .ok (s.block n) else .error (outside s.indices n)

/-- Puts a block at any number. The palette takes the block in before the place is looked up
again. -/
def putChecked (n : Nat) (b : Block) : Edit Section Unit := do
  let s ← get
  let previous ← s.blockChecked n
  if previous ≠ b then
    let (s, i) := s.intern b
    set s
    if s.indices.Has n then set (s.replace n i previous b)
    else throw (outside s.indices n)

end Section

end Cadastre
