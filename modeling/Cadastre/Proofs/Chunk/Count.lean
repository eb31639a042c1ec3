import Cadastre.Proofs.Chunk.Blocks
import Mathlib.Algebra.BigOperators.Fin
import Mathlib.Data.Fintype.Prod
import Mathlib.SetTheory.Cardinal.NatCard
/-!
# Cadastre.Proofs.Chunk.Count

**Counting and looking for blocks.** In a chunk whose sections are well-formed, the count that the
sections keep is the number of places that are not air, a chunk is empty if there is no such place
and no biome, and the highest block of a column is found although sections without blocks are passed
over.
-/

namespace Cadastre

/-! ### Places -/

namespace Place

/-- A place as its three coordinates. -/
def coordinates : Place ≃ Fin 16 × Fin worldHeight × Fin 16 where
  toFun p := (p.x, p.y, p.z)
  invFun i := ⟨i.1, i.2.1, i.2.2⟩
  left_inv _ := rfl
  right_inv _ := rfl

instance : Finite Place := Finite.of_equiv _ coordinates.symm

/-- There are too many places to have the kernel list them. -/
noncomputable instance : Fintype Place := Fintype.ofFinite Place

/-- Every number of a section is that of a place. -/
theorem exists_number (i : Fin 16) {n : Nat} (hn : n < sectionSize) :
    ∃ p : Place, p.layer = i ∧ p.number = n := by
  unfold sectionSize at hn
  refine ⟨⟨⟨n % 16, by omega⟩, ⟨i * 16 + n / 256, by unfold worldHeight; omega⟩,
    ⟨n / 16 % 16, by omega⟩⟩, Fin.ext ?_, ?_⟩
  · show (i.val * 16 + n / 256) / 16 = i
    omega
  · show (i.val * 16 + n / 256) % 16 * 256 + n / 16 % 16 * 16 + n % 16 = n
    omega

end Place

namespace Chunk

variable {c : Chunk}

/-! ### The count -/

/-- The blocks that a slot counts. -/
def slotCount (slot : Option Section) : Nat := slot.elim 0 (·.blockCount)

theorem foldr_filterMap (l : List (Option Section)) :
    (l.filterMap id).foldr (fun s n => s.blockCount + n) 0 = (l.map slotCount).sum := by
  induction l with
  | nil => rfl
  | cons slot rest ih =>
      rw [List.map_cons, List.sum_cons, ← ih]
      cases slot with
      | none => exact (Nat.zero_add _).symm
      | some s => rfl

theorem toList_sections (c : Chunk) : c.sections.toList = List.ofFn c.slot := by
  apply List.ext_getElem
  · simp
  · intro i h h'
    rw [Vector.getElem_toList, List.getElem_ofFn]
    rfl

theorem blockCount_eq_sum (c : Chunk) : c.blockCount = ∑ i, slotCount (c.slot i) := by
  unfold blockCount allocated
  rw [foldr_filterMap, toList_sections, List.map_ofFn, List.sum_ofFn]
  rfl

/-- The places that are not air. -/
noncomputable def solid (c : Chunk) : Finset Place :=
  Finset.univ.filter fun p => (c.block p).isAir = false

theorem mem_solid {p : Place} : p ∈ c.solid ↔ (c.block p).isAir = false := by
  unfold solid
  rw [Finset.mem_filter]
  exact and_iff_right (Finset.mem_univ p)

/-- A section counts its places that are not air. -/
theorem slotCount_eq_card (hc : c.Valid) (i : Fin 16) :
    slotCount (c.slot i) = (c.solid.filter fun p => p.layer = i).card := by
  cases hslot : c.slot i with
  | none =>
      have hnone : (c.solid.filter fun p => p.layer = i) = ∅ := by
        rw [Finset.filter_eq_empty_iff]
        intro p hp hlayer
        rw [mem_solid, block_eq_slotBlock, hlayer, hslot, slotBlock_none] at hp
        exact absurd hp (by decide)
      rw [hnone]
      rfl
  | some s =>
      have hsolid (p : Place) (hlayer : p.layer = i) : p ∈ c.solid ↔ p.number ∈ s.solid := by
        rw [mem_solid, block_eq_slotBlock, hlayer, hslot, slotBlock_some, Section.mem_solid]
        exact (and_iff_right p.number_lt).symm
      -- Within one section a place is as good as its number.
      show s.blockCount = _
      rw [(hc i s hslot).count]
      symm
      refine Finset.card_bij (fun p _ => p.number) ?_ ?_ ?_
      · intro p hp
        rw [Finset.mem_filter] at hp
        exact (hsolid p hp.2).mp hp.1
      · intro p hp q hq hnumber
        rw [Finset.mem_filter] at hp hq
        exact Place.eq_of_layer_number (hp.2.trans hq.2.symm) hnumber
      · intro n hn
        obtain ⟨p, hlayer, hnumber⟩ := Place.exists_number i (Section.mem_solid.mp hn).1
        rw [← hnumber] at hn
        exact ⟨p, Finset.mem_filter.mpr ⟨(hsolid p hlayer).mpr hn, hlayer⟩, hnumber⟩

/-- **The count** of a chunk is the number of places that are not air. -/
theorem blockCount_eq_card (hc : c.Valid) :
    c.blockCount = Nat.card { p : Place // c.block p ≠ .air } := by
  have hair (p : Place) : c.block p ≠ .air ↔ (c.block p).isAir = false := by
    rw [← Bool.not_eq_true, Block.isAir_iff]
  simp only [hair]
  rw [blockCount_eq_sum, Nat.card_eq_fintype_card, Fintype.card_subtype]
  show _ = c.solid.card
  rw [Finset.card_eq_sum_card_fiberwise (f := Place.layer) (t := Finset.univ)
    fun p _ => Finset.mem_coe.mpr (Finset.mem_univ _)]
  exact Finset.sum_congr rfl fun i _ => slotCount_eq_card hc i

/-- A chunk counts no block exactly if it has none but air. -/
theorem blockCount_eq_zero_iff (hc : c.Valid) : c.blockCount = 0 ↔ ∀ p, c.block p = .air := by
  rw [blockCount_eq_card hc, Finite.card_eq_zero_iff, isEmpty_subtype]
  simp only [not_not]

theorem all_blockCount_iff (l : List Section) :
    l.all (·.blockCount == 0) = true ↔ l.foldr (fun s n => s.blockCount + n) 0 = 0 := by
  induction l with
  | nil => simp
  | cons s rest ih =>
      rw [List.all_cons, Bool.and_eq_true, ih, List.foldr_cons, Nat.add_eq_zero_iff, beq_iff_eq]

/-- **A chunk is empty** exactly if it holds neither a block nor a biome. -/
theorem isEmpty_iff (hc : c.Valid) :
    c.isEmpty = true ↔ (∀ p, c.block p = .air) ∧ ∀ col, c.biome col = none := by
  have hbiomes : c.biomes.all Option.isNone = true ↔ ∀ col, c.biome col = none := by
    rw [Vector.all_eq_true]
    simp only [Option.isNone_iff_eq_none]
    constructor
    · intro h col
      exact h col.index col.index.isLt
    · intro h i hi
      obtain ⟨col, hcol⟩ := Column.exists_index ⟨i, hi⟩
      have hindex : i = col.index := congrArg Fin.val hcol.symm
      subst hindex
      exact h col
  unfold isEmpty
  rw [Bool.and_eq_true, all_blockCount_iff, hbiomes, ← blockCount_eq_zero_iff hc]
  rfl

/-! ### The highest block -/

/-- What a search from the top finds has nothing above it that would fit. -/
theorem findSome?_reverse_finRange {n : Nat} {α : Type} {f : Fin n → Option α} {a : α}
    (h : (List.finRange n).reverse.findSome? f = some a) :
    ∃ i, f i = some a ∧ ∀ j, i < j → f j = none := by
  obtain ⟨above, i, below, hl, hi, habove⟩ := List.findSome?_eq_some_iff.mp h
  refine ⟨i, hi, fun j hj => habove j ?_⟩
  have hsorted : (above ++ i :: below).Pairwise fun j k => k < j := by
    rw [← hl, List.pairwise_reverse]
    exact List.pairwise_lt_finRange n
  have hmem : j ∈ above ++ i :: below := by
    rw [← hl, List.mem_reverse]
    exact List.mem_finRange j
  rw [List.mem_append, List.mem_cons] at hmem
  rcases hmem with hin | heq | hin
  · exact hin
  · exact absurd heq (ne_of_gt hj)
  · have hlt := (List.pairwise_cons.mp (List.pairwise_append.mp hsorted).2.1).1 j hin
    exact absurd hlt (not_lt_of_gt hj)

theorem find?_reverse_finRange {n : Nat} {p : Fin n → Bool} {i : Fin n}
    (h : (List.finRange n).reverse.find? p = some i) : p i = true ∧ ∀ j, i < j → p j = false := by
  obtain ⟨k, hk, habove⟩ := findSome?_reverse_finRange
    (f := Option.guard p) (by rw [← List.find?_eq_findSome?_guard, h])
  rw [Option.guard_eq_some_iff] at hk
  refine ⟨hk.1 ▸ hk.2, fun j hj => ?_⟩
  have hnone := habove j (hk.1 ▸ hj)
  rw [Option.guard_eq_none_iff] at hnone
  simpa using hnone

/-- What the height of a place is made of. -/
theorem exists_height (y : Fin worldHeight) : ∃ i j, height i j = y := by
  have h : y.val < 256 := y.isLt
  refine ⟨⟨y / 16, by omega⟩, ⟨y % 16, by omega⟩, Fin.ext ?_⟩
  show y.val / 16 * 16 + y % 16 = y
  omega

theorem block_atHeight (c : Chunk) (col : Column) (i j : Fin 16) :
    c.block (col.atHeight (height i j)) = slotBlock (c.slot i) (col.number j) := by
  have hlayer : (col.atHeight (height i j)).layer = i := by
    apply Fin.ext
    show (i.val * 16 + j) / 16 = i
    omega
  have hnumber : (col.atHeight (height i j)).number = col.number j := by
    show Column.number ⟨col.x, col.z⟩ ((i.val * 16 + j) % 16) = col.number j
    congr 1
    omega
  rw [block_eq_slotBlock, hlayer, hnumber]

theorem height_lt_height {i j i' j' : Fin 16} (h : height i j < height i' j') :
    i < i' ∨ i = i' ∧ j < j' := by
  have hlt : i.val * 16 + j < i'.val * 16 + j' := h
  simp only [Fin.lt_def, Fin.ext_iff]
  omega

theorem highestIn_eq_some {col : Column} {i : Fin 16} {y : Fin worldHeight}
    (h : highestIn i col (c.slot i) = some y) :
    ∃ j, height i j = y ∧ c.block (col.atHeight (height i j)) ≠ .air ∧
      ∀ k, j < k → c.block (col.atHeight (height i k)) = .air := by
  simp only [block_atHeight]
  cases hslot : c.slot i with
  | none =>
      rw [hslot] at h
      cases h
  | some s =>
      rw [hslot, highestIn] at h
      split at h
      · cases h
      · obtain ⟨j, hj, hy⟩ := Option.map_eq_some_iff.mp h
        obtain ⟨hsolid, habove⟩ := find?_reverse_finRange hj
        refine ⟨j, hy, fun hair => ?_, fun k hk => ?_⟩
        · rw [← slotBlock_some, Block.isAir_iff.mpr hair] at hsolid
          cases hsolid
        · have hair := habove k hk
          rw [Bool.not_eq_false'] at hair
          exact Block.isAir_iff.mp hair

theorem highestIn_eq_none (hc : c.Valid) {col : Column} {i : Fin 16}
    (h : highestIn i col (c.slot i) = none) (j : Fin 16) :
    c.block (col.atHeight (height i j)) = .air := by
  rw [block_atHeight]
  cases hslot : c.slot i with
  | none => rfl
  | some s =>
      rw [hslot, highestIn] at h
      rw [slotBlock_some]
      split at h
      · rename_i hcount
        exact (hc i s hslot).block_eq_air hcount (number_lt col j.isLt)
      · have hnone := Option.map_eq_none_iff.mp h
        rw [List.find?_eq_none] at hnone
        have hair := hnone j (List.mem_reverse.mpr (List.mem_finRange j))
        rw [Bool.not_eq_true, Bool.not_eq_false'] at hair
        exact Block.isAir_iff.mp hair

theorem highest_eq_none (hc : c.Valid) {col : Column} (h : c.highest col = none)
    (y : Fin worldHeight) : c.block (col.atHeight y) = .air := by
  obtain ⟨i, j, rfl⟩ := exists_height y
  have hnone := List.findSome?_eq_none_iff.mp h i (List.mem_reverse.mpr (List.mem_finRange i))
  exact highestIn_eq_none hc hnone j

/-- **The highest block** of a column is not air, and above it there is only air. -/
theorem highest_eq_some (hc : c.Valid) {col : Column} {y : Fin worldHeight}
    (h : c.highest col = some y) :
    c.block (col.atHeight y) ≠ .air ∧ ∀ y', y < y' → c.block (col.atHeight y') = .air := by
  obtain ⟨i, hi, habove⟩ := findSome?_reverse_finRange h
  obtain ⟨j, rfl, hsolid, hair⟩ := highestIn_eq_some hi
  refine ⟨hsolid, fun y' hy' => ?_⟩
  obtain ⟨i', j', rfl⟩ := exists_height y'
  -- What is above lies in a section further up, or further up in the same section.
  rcases height_lt_height hy' with hlt | ⟨rfl, hlt⟩
  · exact highestIn_eq_none hc (habove i' hlt) j'
  · exact hair j' hlt

/-- A column has no highest block exactly if it is all air. -/
theorem highest_eq_none_iff (hc : c.Valid) {col : Column} :
    c.highest col = none ↔ ∀ y, c.block (col.atHeight y) = .air := by
  refine ⟨highest_eq_none hc, fun hair => ?_⟩
  cases hfound : c.highest col with
  | none => rfl
  | some y => exact absurd (hair y) (highest_eq_some hc hfound).1

/-- The highest block of a column is the one that is not air and has only air above. -/
theorem highest_eq_some_iff (hc : c.Valid) {col : Column} {y : Fin worldHeight} :
    c.highest col = some y ↔
      c.block (col.atHeight y) ≠ .air ∧ ∀ y', y < y' → c.block (col.atHeight y') = .air := by
  refine ⟨highest_eq_some hc, fun ⟨hsolid, habove⟩ => ?_⟩
  cases hfound : c.highest col with
  | none => exact absurd (highest_eq_none hc hfound y) hsolid
  | some y' =>
      obtain ⟨hsolid', habove'⟩ := highest_eq_some hc hfound
      rcases lt_trichotomy y y' with hlt | heq | hgt
      · exact absurd (habove y' hlt) hsolid'
      · rw [heq]
      · exact absurd (habove' y hgt) hsolid

end Chunk

end Cadastre
