import Cadastre.Proofs.Edit
import Cadastre.Proofs.Section.Valid
import Mathlib.Algebra.Order.Floor.Div
import Mathlib.Data.Nat.Log
import Mathlib.SetTheory.Cardinal.NatCard
/-!
# Cadastre.Proofs.Section.History

**A section remembers what was put into it.** From a section of air, blocks are put at positions,
any blocks in any order. However far the palette grows on the way and however often the storage is
packed anew, each position has the block that was put there last (`Section.blocks_of_writes`).

What is known of the section besides, its palette, the width of its indices, its storage and its
count, is `Section.Valid`, and from that alone it follows that a further block is put without a step
that leaves its range (`Section.PutsInRange`): every division has a divisor, every word and every
palette entry exists, no shift is as wide as a word, no index is cut short by its width, and the
count neither falls below zero nor exceeds the number of blocks.
-/

namespace Cadastre

/-! ### Steps in range -/

/-- The place of a number is found, read and overwritten without a step out of range. -/
structure Packed.Reaches (p : Packed) (n : Nat) : Prop where
  /-- A word has a number of places, so that numbers can be divided by it. -/
  width_pos : 0 < p.width
  perWord_pos : 0 < perWord p.width
  /-- The mask is made by a shift. -/
  width_lt : p.width < 64
  word : p.Has n
  /-- The number is shifted to its place, and its last bit still lies in the word. -/
  shift : n % perWord p.width * p.width + p.width ≤ 64

namespace Section

/-- A block is put at a number without a step out of range. -/
structure PutsInRange (s : Section) (n : Nat) (b : Block) : Prop where
  /-- The block that is there is looked up. -/
  index : s.indices.read n < s.palette.size
  /-- Every number is read from the storage as it was, should it be packed anew, and the numbers are
  written to the storage as it is then. -/
  before : ∀ k < sectionSize, s.indices.Reaches k
  after : ∀ k < sectionSize, (s.intern b).1.indices.Reaches k
  /-- All numbers fit the storage that they are written to. -/
  kept : ∀ k < sectionSize, s.indices.read k < 2 ^ (s.intern b).1.indices.width
  fits : (s.intern b).2 < 2 ^ (s.intern b).1.indices.width
  /-- The count goes down only where there is a block, and up to the number of all blocks only. -/
  count_pos : s.block n ≠ b → b.isAir = true → 0 < s.blockCount
  count_le : (s.put n b).blockCount ≤ sectionSize

variable {s : Section} {n : Nat}

theorem Valid.reaches (hs : s.Valid) (hn : n < sectionSize) : s.indices.Reaches n where
  width_pos := hs.width_pos
  perWord_pos := Nat.div_pos hs.width_lt.le hs.width_pos
  width_lt := hs.width_lt
  word := hs.has hn
  shift := Packed.shift_add_width_le hs.width_pos n hs.width_lt

theorem Valid.blockCount_le (hs : s.Valid) : s.blockCount ≤ sectionSize := by
  have hle := Finset.card_filter_le (Finset.range sectionSize) fun n => (s.block n).isAir = false
  rw [Finset.card_range] at hle
  exact hs.count.trans_le hle

/-- The index of an interned block fits the storage. -/
theorem Valid.intern_lt (hs : s.Valid) (b : Block) :
    (s.intern b).2 < 2 ^ (s.intern b).1.indices.width := by
  obtain ⟨hvalid, -, hindex⟩ := intern_spec hs b
  obtain ⟨hlt, -⟩ := Array.getElem?_eq_some_iff.mp hindex
  exact hlt.trans_le hvalid.size_le

/-- A palette never shrinks. -/
theorem size_palette_le_intern (s : Section) (b : Block) :
    s.palette.size ≤ (s.intern b).1.palette.size := by
  unfold intern
  cases s.palette.idxOf? b with
  | some i => exact le_rfl
  | none => simp

/-- **In range.** A well-formed section takes any block at any of its numbers. -/
theorem Valid.putsInRange (hs : s.Valid) (hn : n < sectionSize) (b : Block) :
    s.PutsInRange n b := by
  obtain ⟨hvalid, -, -⟩ := intern_spec hs b
  have hgrown := s.size_palette_le_intern b
  have hsize := hvalid.size_le
  exact {
    index := hs.read_lt n hn
    before := fun k hk => hs.reaches hk
    after := fun k hk => hvalid.reaches hk
    kept := fun k hk => (hs.read_lt k hk).trans_le (hgrown.trans hsize)
    fits := hs.intern_lt b
    count_pos := fun hne hair => by
      rw [hs.count]
      exact Finset.card_pos.mpr ⟨n, mem_solid_of_ne hn hne hair⟩
    count_le := (put_spec hs hn b).1.blockCount_le }

/-! ### The measures of a well-formed section -/

/-- Indices have four bits, or as many as the palette needs. -/
theorem Valid.width_eq (hs : s.Valid) : s.indices.width = max 4 (Nat.clog 2 s.palette.size) := by
  have hge : 4 ≤ s.indices.width := hs.width_ge
  have hle : Nat.clog 2 s.palette.size ≤ s.indices.width :=
    Nat.clog_le_of_le_pow hs.size_le
  rcases hs.needed with hleast | hneeded
  · have hfour : s.indices.width = 4 := hleast
    omega
  · have hlog : s.indices.width - 1 < Nat.clog 2 s.palette.size :=
      (Nat.lt_clog_iff_pow_lt Nat.one_lt_two).mpr hneeded
    omega

/-- The storage has just the words that it takes to hold all blocks. -/
theorem Valid.size_words (hs : s.Valid) :
    s.indices.words.size = 4096 ⌈/⌉ (64 / s.indices.width) := by
  rw [hs.words, Nat.ceilDiv_eq_add_pred_div]
  rfl

/-! ### Places to spare -/

/-- The places beyond the last block, which a storage may have to spare, are zero. -/
def TailZero (s : Section) : Prop := ∀ n, sectionSize ≤ n → s.indices.read n = 0

theorem Valid.tailZero_intern (hs : s.Valid) (htail : s.TailZero) (b : Block) :
    (s.intern b).1.TailZero := by
  intro n hn
  unfold intern
  cases s.palette.idxOf? b with
  | some i => exact htail n hn
  | none =>
      have hle := hs.width_le
      dsimp only
      split
      · exact Packed.read_repack_spare (Nat.succ_pos _) (by omega) (fun k => hs.read_lt_wider) hn
      · exact htail n hn

/-- Putting a block at one of a section's numbers leaves the places to spare zero. -/
theorem Valid.tailZero_put (hs : s.Valid) (htail : s.TailZero) (hn : n < sectionSize) (b : Block) :
    (s.put n b).TailZero := by
  intro m hm
  unfold put
  by_cases hsame : s.block n = b
  · simp only [hsame, if_true]
    exact htail m hm
  · obtain ⟨hvalid, -, -⟩ := intern_spec hs b
    have hread := Packed.read_write (m := m) hvalid.width_pos hvalid.width_lt (hvalid.has hn)
      (hs.intern_lt b)
    rw [if_neg (by omega)] at hread
    simp only [hsame, if_false]
    exact hread.trans (hs.tailZero_intern htail b m hm)

/-! ### Positions -/

/-- The number of a position is that of its layer, its row and its column. -/
theorem number_toUInt64 {x y z : Nat} (hx : x < 16) (hy : y < 16) (hz : z < 16) :
    number x.toUInt64 y.toUInt64 z.toUInt64 = y * 256 + z * 16 + x := by
  have hword {k : Nat} (hk : k < 16) : k.toUInt64.toNat = k := Nat.mod_eq_of_lt (by omega)
  have hlayer : (y.toUInt64 <<< 8).toNat = y <<< 8 := by
    rw [UInt64.toNat_shiftLeft, hword hy]
    show y <<< 8 % 2 ^ 64 = _
    rw [Nat.shiftLeft_eq]
    omega
  have hrow : (z.toUInt64 <<< 4).toNat = z <<< 4 := by
    rw [UInt64.toNat_shiftLeft, hword hz]
    show z <<< 4 % 2 ^ 64 = _
    rw [Nat.shiftLeft_eq]
    omega
  -- The three have no bits in common, so putting them together is adding them.
  have hlow : z <<< 4 + x = z <<< 4 ||| x := Nat.shiftLeft_add_eq_or_of_lt (by omega) z
  have hhigh : y <<< 8 + (z <<< 4 + x) = y <<< 8 ||| (z <<< 4 + x) :=
    Nat.shiftLeft_add_eq_or_of_lt (by rw [Nat.shiftLeft_eq]; omega) y
  rw [number, UInt64.toNat_or, UInt64.toNat_or, hlayer, hrow, hword hx, Nat.or_assoc, ← hlow,
    ← hhigh, Nat.shiftLeft_eq, Nat.shiftLeft_eq]
  omega

/-- A position in a section. -/
structure Position where
  x : Fin 16
  y : Fin 16
  z : Fin 16
  deriving DecidableEq

namespace Position

/-- The number of a position. -/
def number (p : Position) : Nat :=
  Section.number p.x.val.toUInt64 p.y.val.toUInt64 p.z.val.toUInt64

theorem number_eq (p : Position) : p.number = p.y * 256 + p.z * 16 + p.x :=
  number_toUInt64 p.x.isLt p.y.isLt p.z.isLt

theorem number_lt (p : Position) : p.number < sectionSize := by
  rw [number_eq]
  unfold sectionSize
  omega

theorem number_inj {p q : Position} : p.number = q.number ↔ p = q := by
  obtain ⟨px, py, pz⟩ := p
  obtain ⟨qx, qy, qz⟩ := q
  simp only [number_eq, Position.mk.injEq, Fin.ext_iff]
  omega

theorem exists_number (hn : n < sectionSize) : ∃ p : Position, p.number = n := by
  unfold sectionSize at hn
  refine ⟨⟨⟨n % 16, by omega⟩, ⟨n / 256, by omega⟩, ⟨n / 16 % 16, by omega⟩⟩, ?_⟩
  rw [number_eq]
  show n / 256 * 256 + n / 16 % 16 * 16 + n % 16 = n
  omega

end Position

/-- The count of a well-formed section is that of its positions that are not air. -/
theorem Valid.blockCount_eq (hs : s.Valid) :
    s.blockCount = Nat.card { p : Position // s.block p.number ≠ .air } := by
  have hmem (p : Position) : p.number ∈ s.solid ↔ s.block p.number ≠ .air := by
    rw [mem_solid, and_iff_right p.number_lt, ← Bool.not_eq_true, Block.isAir_iff]
  let f (p : { p : Position // s.block p.number ≠ .air }) : s.solid :=
    ⟨p.val.number, (hmem p.val).mpr p.property⟩
  have hinj : Function.Injective f := by
    intro p q heq
    exact Subtype.ext (Position.number_inj.mp (congrArg Subtype.val heq))
  have hsurj : Function.Surjective f := by
    rintro ⟨n, hn⟩
    obtain ⟨p, rfl⟩ := Position.exists_number (mem_solid.mp hn).1
    exact ⟨⟨p, (hmem p).mp hn⟩, rfl⟩
  rw [hs.count, Nat.card_eq_of_bijective f ⟨hinj, hsurj⟩, Nat.card_eq_fintype_card,
    Fintype.card_coe]

/-! ### Writes -/

/-- Putting blocks at positions, one after the other. -/
def putAll (writes : List (Position × Block)) : Edit Section Unit :=
  writes.forM fun w => putChecked w.1.number w.2

/-- The block that was put at a position last, or air. -/
def lastPut (writes : List (Position × Block)) (p : Position) : Block :=
  ((writes.reverse.find? fun w => w.1 = p).map Prod.snd).getD .air

variable {writes : List (Position × Block)}

theorem putAll_concat (writes : List (Position × Block)) (p : Position) (b : Block) :
    putAll (writes ++ [(p, b)]) = putAll writes >>= fun _ => putChecked p.number b := by
  unfold putAll
  rw [List.forM_eq_forM, List.forM_append, List.forM_cons, List.forM_nil, bind_pure_unit]

theorem lastPut_concat (writes : List (Position × Block)) (p q : Position) (b : Block) :
    lastPut (writes ++ [(p, b)]) q = if q = p then b else lastPut writes q := by
  unfold lastPut
  rw [List.reverse_concat, List.find?_cons]
  by_cases h : q = p
  · simp [h]
  · simp [h, Ne.symm h]

/-- A well-formed section is written to without being cut off. -/
theorem Valid.putChecked_eq (hs : s.Valid) (hn : n < sectionSize) (b : Block) :
    putChecked n b s = .ok () (s.put n b) := by
  have hprevious : s.blockChecked n = .ok (s.block n) := if_pos (hs.has hn)
  unfold putChecked put
  rw [Edit.get_bind, hprevious, Edit.liftM_ok_bind]
  by_cases hsame : s.block n = b
  · simp only [hsame, ne_eq, not_true_eq_false, if_false, if_true]
    rfl
  · obtain ⟨hvalid, -, -⟩ := intern_spec hs b
    simp only [hsame, ne_eq, not_false_eq_true, if_true, if_false]
    rw [if_pos (hvalid.has hn)]
    rfl

/-- A well-formed section, whose storage has nothing to spare but zeros, shows the blocks that were
put last. -/
structure Shows (s : Section) (writes : List (Position × Block)) : Prop where
  valid : s.Valid
  tail : s.TailZero
  block : ∀ p : Position, s.block p.number = lastPut writes p

theorem shows_empty : empty.Shows [] where
  valid := valid_empty
  tail n _ := Packed.read_zeros (by decide) (by decide) n
  block _ := block_empty

/-- **One write.** -/
theorem Shows.put (h : s.Shows writes) (p : Position) (b : Block) :
    (s.put p.number b).Shows (writes ++ [(p, b)]) := by
  obtain ⟨hvalid, hblock⟩ := put_spec h.valid p.number_lt b
  refine ⟨hvalid, h.valid.tailZero_put h.tail p.number_lt b, fun q => ?_⟩
  rw [hblock q.number q.number_lt, h.block, lastPut_concat]
  simp only [Position.number_inj]

/-- **All writes**, of which none is cut off. -/
theorem ends_putAll (writes : List (Position × Block)) :
    (putAll writes).Ends empty fun _ s => s.Shows writes := by
  induction writes using List.reverseRecOn with
  | nil => exact Edit.ends_pure shows_empty
  | append_singleton writes w ih =>
      rw [putAll_concat]
      refine ih.bind fun _ s hs => ?_
      exact ⟨(), _, hs.valid.putChecked_eq w.1.number_lt w.2, hs.put w.1 w.2⟩

/-- Every index in the storage names an entry of the palette. -/
theorem Shows.read_lt (h : s.Shows writes) (n : Nat) : s.indices.read n < s.palette.size := by
  rcases Nat.lt_or_ge n sectionSize with hn | hn
  · exact h.valid.read_lt n hn
  · rw [h.tail n hn]
    exact h.valid.size_pos

/-- **A section remembers what was put into it.** Any blocks are put into a section of air at any
positions. Air comes first in its palette, which has no block twice. Its indices have as many bits
as the palette needs, at least four and at most sixteen, and take up as many words as it takes.
Every index names an entry of the palette, and the count is that of the positions that are not air.
Each position has the block that was put there last. A further block can be put anywhere without a
step out of range. -/
theorem blocks_of_writes (writes : List (Position × Block)) :
    ∃ s, putAll writes empty = .ok () s ∧
      (s.palette[0]? = some .air ∧ s.palette.toList.Nodup) ∧
      (s.indices.width = max 4 (Nat.clog 2 s.palette.size) ∧ s.indices.width ≤ 16) ∧
      s.indices.words.size = 4096 ⌈/⌉ (64 / s.indices.width) ∧
      (∀ n, s.indices.read n < s.palette.size) ∧
      s.blockCount = Nat.card { p : Position // lastPut writes p ≠ .air } ∧
      (∀ p : Position, s.blockChecked p.number = .ok (lastPut writes p)) ∧
      ∀ (p : Position) (b : Block), s.PutsInRange p.number b := by
  obtain ⟨⟨⟩, s, hok, hs⟩ := ends_putAll writes
  refine ⟨s, hok, ⟨hs.valid.air_zero, hs.valid.nodup⟩, ⟨hs.valid.width_eq, hs.valid.width_le⟩,
    hs.valid.size_words, hs.read_lt, ?_, fun p => ?_, fun p b => hs.valid.putsInRange p.number_lt b⟩
  · rw [hs.valid.blockCount_eq]
    simp only [hs.block]
  · rw [← hs.block p]
    exact if_pos (hs.valid.has p.number_lt)

end Section

end Cadastre
