/-!
# Cadastre.Section.Packed

**Packed numbers**: the indices of a section's blocks, several to a word of 64 bits.

Each index has the same width in bits. A word holds as many as fit whole, the first in its lowest
bits, and no index spans two words.
-/

namespace Cadastre

/-- The number of blocks in a section. -/
def sectionSize : Nat := 4096

/-- A storage of indices of `width` bits. -/
structure Packed where
  width : Nat
  words : Array UInt64
  deriving DecidableEq

namespace Packed

/-- The number of indices in a word. -/
def perWord (width : Nat) : Nat := 64 / width

/-- The number of words that hold one index for each block of a section. -/
def wordsNeeded (width : Nat) : Nat := (sectionSize + perWord width - 1) / perWord width

/-- A storage of zeros. -/
def zeros (width : Nat) : Packed := ⟨width, Array.replicate (wordsNeeded width) 0⟩

/-- The word with the lowest `width` bits set. -/
def mask (width : Nat) : UInt64 := (1 <<< width.toUInt64) - 1

/-- The word that holds an index. -/
def wordOf (p : Packed) (n : Nat) : Nat := n / perWord p.width

/-- The place of an index in its word, in bits. -/
def shiftOf (p : Packed) (n : Nat) : UInt64 := (n % perWord p.width * p.width).toUInt64

/-- Whether the storage has a place for an index. -/
def Has (p : Packed) (n : Nat) : Prop := p.wordOf n < p.words.size

instance (p : Packed) (n : Nat) : Decidable (p.Has n) := inferInstanceAs (Decidable (_ < _))

/-- The index at a place. Beyond the storage it is zero. -/
def read (p : Packed) (n : Nat) : Nat :=
  (((p.words.getD (p.wordOf n) 0) >>> p.shiftOf n) &&& mask p.width).toNat

/-- The storage with another index at a place. Beyond the storage nothing changes. -/
def write (p : Packed) (n index : Nat) : Packed :=
  let shift := p.shiftOf n
  let cleared := ~~~(mask p.width <<< shift)
  let filled := (index.toUInt64 &&& mask p.width) <<< shift
  { p with words := p.words.modify (p.wordOf n) fun word => (word &&& cleared) ||| filled }

/-- The indices of a section's blocks in a storage of another width. -/
def repack (p : Packed) (width : Nat) : Packed :=
  sectionSize.fold (fun n _ q => q.write n (p.read n)) (zeros width)

end Packed

end Cadastre
