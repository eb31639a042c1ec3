import Cadastre.Proofs.Section.Packed
import Cadastre.Section
import Mathlib.Data.Finset.Card
/-!
# Cadastre.Proofs.Section.Valid

**Well-formed sections.** `Section.Valid` collects what holds of every section that was made by
putting blocks at the numbers of a section: the palette begins with air and has no block twice, its
indices have as many bits as it needs and no more, every stored index lies in it, and the blocks
other than air are counted.

`Section.put_spec` says that putting a block keeps this and changes one block only.
-/

namespace Cadastre

/-- There are no more than 65536 different blocks. -/
theorem Block.length_le_of_nodup {l : List Block} (h : l.Nodup) : l.length ≤ 65536 := by
  have hinj : Function.Injective fun b : Block => b.id.toNat := by
    intro b b' heq
    cases b
    cases b'
    simpa using UInt16.toNat_inj.mp heq
  have hsub : l.map (fun b => b.id.toNat) ⊆ List.range 65536 := by
    intro n hn
    obtain ⟨b, -, rfl⟩ := List.mem_map.mp hn
    exact List.mem_range.mpr b.id.toNat_lt
  have hle := ((h.map hinj).subperm hsub).length_le
  rwa [List.length_map, List.length_range] at hle

namespace Section

/-- The numbers of a section's blocks that are not air. -/
def solid (s : Section) : Finset Nat :=
  (Finset.range sectionSize).filter fun n => (s.block n).isAir = false

theorem mem_solid {s : Section} {n : Nat} :
    n ∈ s.solid ↔ n < sectionSize ∧ (s.block n).isAir = false := by
  unfold solid
  rw [Finset.mem_filter, Finset.mem_range]

/-- Where a block differs from air there is one to count. -/
theorem mem_solid_of_ne {s : Section} {n : Nat} (hn : n < sectionSize) {b : Block}
    (hne : s.block n ≠ b) (hair : b.isAir = true) : n ∈ s.solid := by
  rw [mem_solid]
  refine ⟨hn, ?_⟩
  by_contra hold
  rw [Bool.not_eq_false, Block.isAir_iff] at hold
  exact hne (hold.trans (Block.isAir_iff.mp hair).symm)

theorem solid_congr {s s' : Section} (h : ∀ n < sectionSize, s'.block n = s.block n) :
    s'.solid = s.solid := by
  ext n
  rw [mem_solid, mem_solid]
  refine and_congr_right fun hn => ?_
  rw [h n hn]

/-- What holds of a section whose blocks were put at its own numbers. -/
structure Valid (s : Section) : Prop where
  air_zero : s.palette[0]? = some .air
  nodup : s.palette.toList.Nodup
  width_ge : minWidth ≤ s.indices.width
  /-- Indices got wider only when the palette had outgrown them. -/
  needed : s.indices.width = minWidth ∨ 2 ^ (s.indices.width - 1) < s.palette.size
  size_le : s.palette.size ≤ 2 ^ s.indices.width
  words : s.indices.words.size = Packed.wordsNeeded s.indices.width
  read_lt : ∀ n < sectionSize, s.indices.read n < s.palette.size
  count : s.blockCount = s.solid.card

variable {s : Section}

theorem Valid.width_le (hs : s.Valid) : s.indices.width ≤ 16 := by
  have hsize : s.palette.size ≤ 2 ^ 16 := Block.length_le_of_nodup hs.nodup
  -- A larger width would have been needed for more blocks than there are.
  by_contra hwide
  rcases hs.needed with heq | hlt
  · rw [heq] at hwide
    exact hwide (by decide)
  · have hpow : 2 ^ 16 ≤ 2 ^ (s.indices.width - 1) := Nat.pow_le_pow_right (by decide) (by omega)
    omega

theorem Valid.width_pos (hs : s.Valid) : 0 < s.indices.width :=
  Nat.lt_of_lt_of_le (by decide) hs.width_ge

theorem Valid.width_lt (hs : s.Valid) : s.indices.width < 64 :=
  Nat.lt_of_le_of_lt hs.width_le (by decide)

theorem Valid.has (hs : s.Valid) {n : Nat} (hn : n < sectionSize) : s.indices.Has n :=
  Packed.has_of_lt hs.width_pos hs.width_lt hs.words hn

/-- Air is in every palette. -/
theorem Valid.size_pos (hs : s.Valid) : 0 < s.palette.size :=
  (Array.getElem?_eq_some_iff.mp hs.air_zero).1

/-- All indices fit a storage with one bit more. -/
theorem Valid.read_lt_wider (hs : s.Valid) {n : Nat} (hn : n < sectionSize) :
    s.indices.read n < 2 ^ (s.indices.width + 1) :=
  calc s.indices.read n
      < s.palette.size := hs.read_lt n hn
    _ ≤ 2 ^ s.indices.width := hs.size_le
    _ ≤ 2 ^ (s.indices.width + 1) := Nat.pow_le_pow_right (by decide) (Nat.le_succ _)

/-- A section that counts no block has none but air. -/
theorem Valid.block_eq_air (hs : s.Valid) (hcount : s.blockCount = 0) {n : Nat}
    (hn : n < sectionSize) : s.block n = .air := by
  have hsolid : s.solid = ∅ := Finset.card_eq_zero.mp (hs.count ▸ hcount)
  rw [← Block.isAir_iff]
  by_contra hnot
  have hmem : n ∈ s.solid := mem_solid.mpr ⟨hn, by simpa using hnot⟩
  rw [hsolid] at hmem
  cases hmem

/-- A section of air. -/
theorem block_empty {n : Nat} : empty.block n = .air := by
  unfold block
  have hread : empty.indices.read n = 0 := Packed.read_zeros (by decide) (by decide) n
  rw [hread]
  rfl

theorem valid_empty : empty.Valid where
  air_zero := rfl
  nodup := by simp [empty]
  width_ge := le_rfl
  needed := .inl rfl
  size_le := by decide
  words := by simp [empty, Packed.zeros]
  read_lt n _ := by
    have hread : empty.indices.read n = 0 := Packed.read_zeros (by decide) (by decide) n
    rw [hread]
    decide
  count := by
    have hnone : empty.solid = ∅ := by
      unfold solid
      rw [Finset.filter_eq_empty_iff]
      intro n _
      rw [block_empty]
      decide
    rw [hnone]
    rfl

/-! ### Interning -/

/-- A palette that grows by a block, in a storage that has room for it. -/
theorem Valid.push (hs : s.Valid) {b : Block} (hb : b ∉ s.palette) {indices : Packed}
    (hwidth : indices.width = s.indices.width ∧ s.palette.size < 2 ^ s.indices.width ∨
      indices.width = s.indices.width + 1 ∧ s.palette.size = 2 ^ s.indices.width)
    (hwords : indices.words.size = Packed.wordsNeeded indices.width)
    (hread : ∀ n < sectionSize, indices.read n = s.indices.read n) :
    ({ s with palette := s.palette.push b, indices } : Section).Valid ∧
      ∀ n < sectionSize,
        ({ s with palette := s.palette.push b, indices } : Section).block n = s.block n := by
  have hblock : ∀ n < sectionSize,
      ({ s with palette := s.palette.push b, indices } : Section).block n = s.block n := by
    intro n hn
    have hlt := hs.read_lt n hn
    unfold block
    simp only [hread n hn, Array.getD_eq_getD_getElem?, Array.getElem?_push, Nat.ne_of_lt hlt,
      if_false]
  refine ⟨?_, hblock⟩
  have hsize := hs.size_pos
  have hwidth_pos := hs.width_ge
  constructor
  case air_zero =>
    show (s.palette.push b)[0]? = some .air
    rw [Array.getElem?_push, if_neg (by omega)]
    exact hs.air_zero
  case nodup =>
    show (s.palette.push b).toList.Nodup
    rw [Array.toList_push, List.nodup_append]
    refine ⟨hs.nodup, List.nodup_singleton b, ?_⟩
    intro c hc c' hc' heq
    rw [List.mem_singleton.mp hc'] at heq
    rw [heq] at hc
    exact hb (Array.mem_toList_iff.mp hc)
  case width_ge =>
    show minWidth ≤ indices.width
    omega
  case needed =>
    show indices.width = minWidth ∨ 2 ^ (indices.width - 1) < (s.palette.push b).size
    rw [Array.size_push]
    rcases hwidth with ⟨heq, -⟩ | ⟨heq, hfull⟩
    · rw [heq]
      exact hs.needed.imp_right fun h => h.trans (Nat.lt_succ_self _)
    · -- The palette was full, so its last block is the first that needs the new bit.
      right
      rw [heq, Nat.add_sub_cancel]
      omega
  case size_le =>
    show (s.palette.push b).size ≤ 2 ^ indices.width
    rw [Array.size_push]
    rcases hwidth with ⟨heq, hroom⟩ | ⟨heq, hfull⟩
    · rw [heq]
      exact hroom
    · have := Nat.two_pow_pos s.indices.width
      rw [heq, Nat.pow_succ]
      omega
  case words => exact hwords
  case read_lt =>
    intro n hn
    show indices.read n < (s.palette.push b).size
    rw [hread n hn, Array.size_push]
    exact Nat.lt_succ_of_lt (hs.read_lt n hn)
  case count =>
    have hsolid : solid { s with palette := s.palette.push b, indices } = s.solid :=
      solid_congr hblock
    rw [hsolid]
    exact hs.count

theorem getElem?_of_idxOf? {palette : Array Block} {b : Block} {i : Nat}
    (h : palette.idxOf? b = some i) : palette[i]? = some b := by
  rw [Array.idxOf?_eq_map_finIdxOf?_val, Option.map_eq_some_iff] at h
  obtain ⟨j, hj, rfl⟩ := h
  rw [Array.finIdxOf?_eq_some_iff] at hj
  rw [Array.getElem?_eq_getElem j.isLt]
  exact congrArg some hj.1

/-- **Interning a block** changes no block of the section, and names the one it interned. -/
theorem intern_spec (hs : s.Valid) (b : Block) :
    (s.intern b).1.Valid ∧ (∀ n < sectionSize, (s.intern b).1.block n = s.block n) ∧
      (s.intern b).1.palette[(s.intern b).2]? = some b := by
  unfold intern
  cases hfound : s.palette.idxOf? b with
  | some i => exact ⟨hs, fun n _ => rfl, getElem?_of_idxOf? hfound⟩
  | none =>
      have hb : b ∉ s.palette := Array.idxOf?_eq_none_iff.mp hfound
      have hnew : (s.palette.push b)[s.palette.size]? = some b := by
        rw [Array.getElem?_push, if_pos rfl]
      have hpow : 1 <<< s.indices.width = 2 ^ s.indices.width := Nat.one_shiftLeft _
      have hsize := hs.size_le
      dsimp only
      by_cases hfull : 1 <<< s.indices.width < (s.palette.push b).size
      · -- The palette outgrows the storage, which is packed anew with one bit more.
        have hle := hs.width_le
        obtain ⟨hwidth, hwords, hread⟩ :=
          Packed.repack_spec (Nat.succ_pos s.indices.width) (by omega) fun n => hs.read_lt_wider
        rw [if_pos hfull]
        rw [hpow, Array.size_push] at hfull
        have hgrown := hs.push hb (.inr ⟨hwidth, by omega⟩) (by rw [hwords, hwidth]) hread
        exact ⟨hgrown.1, hgrown.2, hnew⟩
      · rw [if_neg hfull]
        rw [hpow, Array.size_push] at hfull
        have hgrown := hs.push hb (.inl ⟨rfl, by omega⟩) hs.words fun n _ => rfl
        exact ⟨hgrown.1, hgrown.2, hnew⟩

/-! ### Putting -/

/-- How many blocks are not air once one of them has been replaced by another. -/
theorem card_solid_of_replaced {s' : Section} {n : Nat} (hn : n < sectionSize) {b : Block}
    (hblock : ∀ m, s'.block m = if m = n then b else s.block m) (hne : s.block n ≠ b) :
    s'.solid.card =
      if b.isAir then s.solid.card - 1
      else if (s.block n).isAir then s.solid.card + 1 else s.solid.card := by
  by_cases hair : b.isAir = true
  · have hmem : n ∈ s.solid := mem_solid_of_ne hn hne hair
    have hsolid : s'.solid = s.solid.erase n := by
      ext m
      rw [Finset.mem_erase, mem_solid, mem_solid, hblock m]
      by_cases hm : m = n <;> simp [hm, hair]
    rw [if_pos hair, hsolid, Finset.card_erase_of_mem hmem]
  · by_cases hold : (s.block n).isAir = true
    · have hmem : n ∉ s.solid := by
        rw [mem_solid, hold]
        simp
      have hsolid : s'.solid = insert n s.solid := by
        ext m
        rw [Finset.mem_insert, mem_solid, mem_solid, hblock m]
        by_cases hm : m = n <;> simp [hm, hair, hn]
      rw [if_neg hair, if_pos hold, hsolid, Finset.card_insert_of_notMem hmem]
    · have hsolid : s'.solid = s.solid := by
        ext m
        rw [mem_solid, mem_solid, hblock m]
        by_cases hm : m = n <;> simp [hm, hair, hold]
      rw [if_neg hair, if_neg hold, hsolid]

/-- **Replacing a block** by another that is in the palette. -/
theorem replace_spec (hs : s.Valid) {n i : Nat} (hn : n < sectionSize) {b : Block}
    (hi : s.palette[i]? = some b) (hne : s.block n ≠ b) :
    (s.replace n i (s.block n) b).Valid ∧ ∀ m < sectionSize,
      (s.replace n i (s.block n) b).block m = if m = n then b else s.block m := by
  obtain ⟨hlt, -⟩ := Array.getElem?_eq_some_iff.mp hi
  have hread (m : Nat) : (s.indices.write n i).read m = if m = n then i else s.indices.read m :=
    Packed.read_write hs.width_pos hs.width_lt (hs.has hn) (hlt.trans_le hs.size_le)
  have hblock (m : Nat) :
      (s.replace n i (s.block n) b).block m = if m = n then b else s.block m := by
    show s.palette.getD ((s.indices.write n i).read m) .air = _
    rw [hread m]
    by_cases hm : m = n
    · rw [if_pos hm, if_pos hm, Array.getD_eq_getD_getElem?, hi]
      rfl
    · rw [if_neg hm, if_neg hm]
      rfl
  refine ⟨?_, fun m _ => hblock m⟩
  constructor
  case air_zero => exact hs.air_zero
  case nodup => exact hs.nodup
  case width_ge => exact hs.width_ge
  case needed => exact hs.needed
  case size_le => exact hs.size_le
  case words =>
    show (s.indices.write n i).words.size = _
    rw [Packed.size_words_write]
    exact hs.words
  case read_lt =>
    intro m hm
    show (s.indices.write n i).read m < s.palette.size
    rw [hread m]
    split
    · exact hlt
    · exact hs.read_lt m hm
  case count =>
    show (if b.isAir then s.blockCount - 1
      else if (s.block n).isAir then s.blockCount + 1 else s.blockCount) = _
    rw [hs.count, card_solid_of_replaced hn hblock hne]

/-- **Putting a block** at a number of the section changes that block and no other. -/
theorem put_spec (hs : s.Valid) {n : Nat} (hn : n < sectionSize) (b : Block) :
    (s.put n b).Valid ∧
      ∀ m < sectionSize, (s.put n b).block m = if m = n then b else s.block m := by
  unfold put
  by_cases hsame : s.block n = b
  · simp only [hsame, if_true]
    refine ⟨hs, fun m _ => ?_⟩
    by_cases hm : m = n
    · rw [if_pos hm, hm, hsame]
    · rw [if_neg hm]
  · obtain ⟨hvalid, hkept, hindex⟩ := intern_spec hs b
    have hprevious := hkept n hn
    simp only [hsame, if_false]
    -- The index is written over the block that the section has after interning: the old one.
    rw [← hprevious] at hsame ⊢
    obtain ⟨hvalid', hblock⟩ := replace_spec hvalid hn hindex hsame
    refine ⟨hvalid', fun m hm => ?_⟩
    rw [hblock m hm, hkept m hm]

end Section

end Cadastre
