import Cadastre.Section.Packed
import Mathlib.Data.Nat.Bitwise
import Mathlib.Tactic.Ring
/-!
# Cadastre.Proofs.Section.Packed

**A packed storage is an array of numbers.** Reading after a write gives the number that was written
at its place and the old one at every other, as long as the number fits the width and the place
exists. Packing anew in another width keeps all numbers that fit.
-/

namespace Cadastre.Packed

/-! ### Bits of a word -/

theorem toBitVec_shiftLeft (word : UInt64) {shift : Nat} (h : shift < 64) :
    (word <<< shift.toUInt64).toBitVec = word.toBitVec <<< shift := by
  have hamount : (shift.toUInt64.toBitVec % 64).toNat = shift := by
    show shift % 2 ^ 64 % 64 = shift
    omega
  rw [UInt64.toBitVec_shiftLeft, BitVec.shiftLeft_eq', hamount]

theorem toBitVec_shiftRight (word : UInt64) {shift : Nat} (h : shift < 64) :
    (word >>> shift.toUInt64).toBitVec = word.toBitVec >>> shift := by
  have hamount : (shift.toUInt64.toBitVec % 64).toNat = shift := by
    show shift % 2 ^ 64 % 64 = shift
    omega
  rw [UInt64.toBitVec_shiftRight, BitVec.ushiftRight_eq', hamount]

theorem getLsbD_mask {width : Nat} (h : width < 64) (i : Nat) :
    (mask width).toBitVec.getLsbD i = decide (i < width) := by
  have hpow : 2 ^ width < 2 ^ 64 := Nat.pow_lt_pow_right (by decide) h
  have hpos : 0 < 2 ^ width := Nat.two_pow_pos width
  have hnat : (mask width).toBitVec.toNat = 2 ^ width - 1 := by
    rw [mask, UInt64.toBitVec_sub, toBitVec_shiftLeft 1 h, BitVec.toNat_sub, BitVec.toNat_shiftLeft]
    show (2 ^ 64 - 1 + 1 <<< width % 2 ^ 64) % 2 ^ 64 = 2 ^ width - 1
    rw [Nat.one_shiftLeft]
    omega
  rw [← BitVec.testBit_toNat, hnat, Nat.testBit_two_pow_sub_one]

/-- A word with the bits of a number from a position on. -/
def overwrite (word : UInt64) (width shift index : Nat) : UInt64 :=
  (word &&& ~~~(mask width <<< shift.toUInt64)) |||
    ((index.toUInt64 &&& mask width) <<< shift.toUInt64)

/-- The bits that are overwritten are those of the number, the others stay. -/
theorem getLsbD_overwrite (word : UInt64) {width shift index i : Nat} (hwidth : width < 64)
    (hshift : shift < 64) (hi : i < 64) :
    (overwrite word width shift index).toBitVec.getLsbD i =
      if shift ≤ i ∧ i < shift + width then index.testBit (i - shift)
      else word.toBitVec.getLsbD i := by
  have hindex : index.toUInt64.toBitVec.getLsbD (i - shift) = index.testBit (i - shift) := by
    show (BitVec.ofNat 64 index).getLsbD (i - shift) = _
    rw [BitVec.getLsbD_ofNat]
    simp only [Bool.and_eq_right_iff_imp, decide_eq_true_eq]
    omega
  rw [overwrite, UInt64.toBitVec_or, UInt64.toBitVec_and, UInt64.toBitVec_not,
    toBitVec_shiftLeft _ hshift, toBitVec_shiftLeft _ hshift, UInt64.toBitVec_and]
  simp only [BitVec.getLsbD_or, BitVec.getLsbD_and, BitVec.getLsbD_not, BitVec.getLsbD_shiftLeft,
    getLsbD_mask hwidth, hindex, hi, decide_true, Bool.true_and]
  -- A bit lies below the bits of the number, among them or above them.
  by_cases hlow : i < shift
  · simp [hlow, Nat.not_le.mpr hlow]
  · have hle : shift ≤ i := Nat.le_of_not_lt hlow
    by_cases hin : i < shift + width
    · have : i - shift < width := by omega
      simp [hlow, hle, hin, this]
    · have : ¬ i - shift < width := by omega
      simp [hlow, hin, this]

/-- The number that a word holds in the bits from a position on. -/
def extract (word : UInt64) (width shift : Nat) : Nat :=
  ((word >>> shift.toUInt64) &&& mask width).toNat

theorem testBit_extract (word : UInt64) {width shift : Nat} (hwidth : width < 64)
    (hshift : shift < 64) (i : Nat) :
    (extract word width shift).testBit i =
      (word.toBitVec.getLsbD (shift + i) && decide (i < width)) := by
  show ((word >>> shift.toUInt64) &&& mask width).toBitVec.toNat.testBit i = _
  rw [BitVec.testBit_toNat, UInt64.toBitVec_and, BitVec.getLsbD_and, getLsbD_mask hwidth,
    toBitVec_shiftRight _ hshift, BitVec.getLsbD_ushiftRight]

theorem extract_overwrite_self (word : UInt64) {width shift index : Nat} (hwidth : width < 64)
    (hfit : shift + width ≤ 64) (hshift : shift < 64) (hindex : index < 2 ^ width) :
    extract (overwrite word width shift index) width shift = index := by
  apply Nat.eq_of_testBit_eq
  intro i
  rw [testBit_extract _ hwidth hshift]
  by_cases hi : i < width
  · rw [getLsbD_overwrite _ hwidth hshift (by omega), if_pos (by omega)]
    simp [hi]
  · -- Above the width neither the word's part nor the number has a bit.
    have hzero : index.testBit i = false :=
      Nat.testBit_lt_two_pow (hindex.trans_le (Nat.pow_le_pow_right (by decide) (by omega)))
    simp [hi, hzero]

/-- Overwriting some bits leaves a number in other bits alone. -/
theorem extract_overwrite_of_disjoint (word : UInt64) {width shift shift' index : Nat}
    (hwidth : width < 64) (hfit : shift' + width ≤ 64) (hshift : shift < 64) (hshift' : shift' < 64)
    (hdisjoint : shift + width ≤ shift' ∨ shift' + width ≤ shift) :
    extract (overwrite word width shift index) width shift' = extract word width shift' := by
  apply Nat.eq_of_testBit_eq
  intro i
  rw [testBit_extract _ hwidth hshift', testBit_extract _ hwidth hshift']
  by_cases hi : i < width
  · rw [getLsbD_overwrite _ hwidth hshift (by omega), if_neg (by omega)]
  · simp [hi]

theorem extract_zero {width shift : Nat} (hwidth : width < 64) (hshift : shift < 64) :
    extract 0 width shift = 0 := by
  apply Nat.eq_of_testBit_eq
  intro i
  rw [testBit_extract _ hwidth hshift]
  simp

/-! ### Reading and writing -/

variable {p : Packed} {n m index : Nat}

/-- Every place of a storage lies within a word. -/
theorem shift_add_width_le (h : 0 < p.width) (n : Nat) (hwidth : p.width < 64) :
    n % perWord p.width * p.width + p.width ≤ 64 := by
  have hper : 0 < perWord p.width := Nat.div_pos hwidth.le h
  have hlt : n % perWord p.width + 1 ≤ perWord p.width := Nat.mod_lt n hper
  calc n % perWord p.width * p.width + p.width
      = (n % perWord p.width + 1) * p.width := by ring
    _ ≤ perWord p.width * p.width := Nat.mul_le_mul_right _ hlt
    _ ≤ 64 := Nat.div_mul_le_self 64 p.width

theorem read_eq_extract (p : Packed) (n : Nat) :
    p.read n = extract (p.words.getD (p.wordOf n) 0) p.width (n % perWord p.width * p.width) := rfl

theorem words_write (p : Packed) (n index : Nat) :
    (p.write n index).words = p.words.modify (p.wordOf n) fun word =>
      overwrite word p.width (n % perWord p.width * p.width) index := rfl

@[simp] theorem width_write (p : Packed) (n index : Nat) : (p.write n index).width = p.width := rfl

@[simp] theorem size_words_write (p : Packed) (n index : Nat) :
    (p.write n index).words.size = p.words.size := Array.size_modify

/-- **Reading after a write.** -/
theorem read_write (hpos : 0 < p.width) (hwidth : p.width < 64) (hn : p.Has n)
    (hindex : index < 2 ^ p.width) :
    (p.write n index).read m = if m = n then index else p.read m := by
  have hfit := shift_add_width_le hpos m hwidth
  have hfit' := shift_add_width_le hpos n hwidth
  rw [read_eq_extract, read_eq_extract, words_write, width_write]
  show extract ((p.words.modify (p.wordOf n) _).getD (p.wordOf m) 0) _ _ = _
  rw [Array.getD_eq_getD_getElem?, Array.getElem?_modify]
  by_cases hword : p.wordOf n = p.wordOf m
  · -- In the same word two numbers have their own bits each.
    have hlt : p.wordOf m < p.words.size := hword ▸ hn
    rw [if_pos hword, Array.getD_eq_getD_getElem?, Array.getElem?_eq_getElem hlt, Option.map_some,
      Option.getD_some, Option.getD_some]
    by_cases hplace : m % perWord p.width = n % perWord p.width
    · have heq : m = n := by
        rw [← Nat.div_add_mod m (perWord p.width), ← Nat.div_add_mod n (perWord p.width), hplace]
        congr 2
        exact hword.symm
      rw [if_pos heq, hplace]
      exact extract_overwrite_self _ hwidth hfit' (by omega) hindex
    · have hne : m ≠ n := fun heq => hplace (by rw [heq])
      rw [if_neg hne]
      -- The bits of two places do not meet, whichever of them comes first.
      refine extract_overwrite_of_disjoint _ hwidth hfit (by omega) (by omega) ?_
      rcases Nat.lt_or_gt_of_ne hplace with hlt | hgt
      · right
        calc m % perWord p.width * p.width + p.width
            = (m % perWord p.width + 1) * p.width := by ring
          _ ≤ n % perWord p.width * p.width := Nat.mul_le_mul_right _ hlt
      · left
        calc n % perWord p.width * p.width + p.width
            = (n % perWord p.width + 1) * p.width := by ring
          _ ≤ m % perWord p.width * p.width := Nat.mul_le_mul_right _ hgt
  · have hne : m ≠ n := fun heq => hword (by rw [heq])
    rw [if_neg hword, if_neg hne, Array.getD_eq_getD_getElem?]

/-! ### Storages of a section -/

/-- A storage of the right size has a place for each block of a section. -/
theorem has_of_lt (hpos : 0 < p.width) (hwidth : p.width < 64)
    (hsize : p.words.size = wordsNeeded p.width) (hn : n < sectionSize) : p.Has n := by
  have hper : 0 < perWord p.width := Nat.div_pos hwidth.le hpos
  show n / perWord p.width < p.words.size
  rw [hsize, wordsNeeded, Nat.div_lt_iff_lt_mul hper, Nat.mul_comm]
  have hdiv := Nat.div_add_mod (sectionSize + perWord p.width - 1) (perWord p.width)
  have hmod := Nat.mod_lt (sectionSize + perWord p.width - 1) hper
  omega

theorem read_zeros {width : Nat} (hpos : 0 < width) (hwidth : width < 64) (n : Nat) :
    (zeros width).read n = 0 := by
  have hfit := shift_add_width_le (p := zeros width) hpos n hwidth
  have hword : (zeros width).words.getD ((zeros width).wordOf n) 0 = 0 := by
    show (Array.replicate _ (0 : UInt64)).getD _ 0 = 0
    rw [Array.getD_eq_getD_getElem?, Array.getElem?_replicate]
    split <;> rfl
  rw [read_eq_extract, hword]
  exact extract_zero hwidth (Nat.lt_of_lt_of_le (Nat.lt_add_of_pos_right hpos) hfit)

/-- After some rounds of packing anew the numbers so far are in place and all others are zero. -/
theorem repack_rounds {width : Nat} (hpos : 0 < width) (hwidth : width < 64)
    (hfit : ∀ n < sectionSize, p.read n < 2 ^ width) {k : Nat} (hk : k ≤ sectionSize) :
    let q := k.fold (fun n _ q => q.write n (p.read n)) (zeros width)
    q.width = width ∧ q.words.size = wordsNeeded width ∧
      ∀ n, q.read n = if n < k then p.read n else 0 := by
  induction k with
  | zero => exact ⟨rfl, by simp [zeros], fun n => by simpa using read_zeros hpos hwidth n⟩
  | succ k ih =>
      obtain ⟨hw, hsize, hread⟩ := ih (by omega)
      simp only [Nat.fold_succ, width_write, size_words_write]
      refine ⟨hw, hsize, fun n => ?_⟩
      have hlt : k < sectionSize := hk
      generalize k.fold (fun n _ q => q.write n (p.read n)) (zeros width) = q at hw hsize hread ⊢
      subst hw
      rw [read_write hpos hwidth (has_of_lt hpos hwidth hsize hlt) (hfit k hlt), hread n]
      by_cases heq : n = k
      · rw [if_pos heq, if_pos (by omega), heq]
      · rw [if_neg heq]
        have hiff : n < k + 1 ↔ n < k := by omega
        simp only [hiff]

/-- **Packing anew** keeps all numbers that fit the new width. -/
theorem repack_spec {width : Nat} (hpos : 0 < width) (hwidth : width < 64)
    (hfit : ∀ n < sectionSize, p.read n < 2 ^ width) :
    (p.repack width).width = width ∧ (p.repack width).words.size = wordsNeeded width ∧
      ∀ n < sectionSize, (p.repack width).read n = p.read n := by
  obtain ⟨hw, hsize, hread⟩ := repack_rounds hpos hwidth hfit le_rfl
  refine ⟨hw, hsize, fun n hn => ?_⟩
  have hkept := hread n
  rw [if_pos hn] at hkept
  exact hkept

/-- The places to spare are zero in a storage that was packed anew. -/
theorem read_repack_spare {width : Nat} (hpos : 0 < width) (hwidth : width < 64)
    (hfit : ∀ n < sectionSize, p.read n < 2 ^ width) (hn : sectionSize ≤ n) :
    (p.repack width).read n = 0 := by
  obtain ⟨-, -, hread⟩ := repack_rounds hpos hwidth hfit le_rfl
  exact (hread n).trans (if_neg (Nat.not_lt.mpr hn))

end Cadastre.Packed
