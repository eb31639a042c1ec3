import Cadastre.Chunk
import Cadastre.Proofs.Section.Valid
/-!
# Cadastre.Proofs.Chunk.Blocks

**A chunk is a map from places to blocks** and from columns to biomes, whatever sections it has and
however they store their blocks. Each operation on a chunk whose sections are well-formed keeps them
so and changes the map as it should: `put_spec`, `putBiome_spec`, `clear_spec` and `overlay_spec`.

Places are looked at section by section. What an operation does to one section is said of a slot,
which holds a section or, while nothing but air was put into it, none.
-/

namespace Cadastre

/-! ### Loops over a section -/

namespace Section

/-- Putting blocks at some numbers of a section, one after the other. -/
theorem foldl_put_spec (f : Nat → Option Block) {l : List Nat} (hl : ∀ n ∈ l, n < sectionSize)
    {s : Section} (hs : s.Valid) :
    (l.foldl (fun s n => (f n).elim s (s.put n)) s).Valid ∧
      ∀ m < sectionSize, (l.foldl (fun s n => (f n).elim s (s.put n)) s).block m =
        if m ∈ l then (f m).getD (s.block m) else s.block m := by
  induction l generalizing s with
  | nil => exact ⟨hs, fun m _ => rfl⟩
  | cons n rest ih =>
      have hrest : ∀ m ∈ rest, m < sectionSize := fun m hm => hl m (List.mem_cons_of_mem n hm)
      rw [List.foldl_cons]
      cases hf : f n with
      | none =>
          obtain ⟨hvalid, hblock⟩ := ih hrest hs
          refine ⟨hvalid, fun m hm => ?_⟩
          rw [Option.elim_none, hblock m hm]
          by_cases hmn : m = n
          · simp [hmn, hf]
          · simp [hmn]
      | some b =>
          obtain ⟨hput, hblock⟩ := put_spec hs (hl n List.mem_cons_self) b
          obtain ⟨hvalid, hblocks⟩ := ih hrest hput
          refine ⟨hvalid, fun m hm => ?_⟩
          -- Should the number come up again, the same block is put there again.
          rw [Option.elim_some, hblocks m hm, hblock m hm]
          by_cases hmn : m = n
          · simp [hmn, hf]
          · simp [hmn]

end Section

namespace Chunk

/-! ### Slots -/

/-- The block at a number of a slot. -/
def slotBlock (slot : Option Section) (n : Nat) : Block := slot.elim .air (·.block n)

theorem slotBlock_some (s : Section) (n : Nat) : slotBlock (some s) n = s.block n := rfl

theorem slotBlock_none (n : Nat) : slotBlock none n = .air := rfl

/-- A slot holds nothing that is not well-formed. -/
def ValidSlot (slot : Option Section) : Prop := ∀ s, slot = some s → s.Valid

theorem validSlot_some {s : Section} (hs : s.Valid) : ValidSlot (some s) := by
  intro s' heq
  cases heq
  exact hs

/-- A section that is made where there was none begins as air. -/
theorem getD_empty_spec {slot : Option Section} (h : ValidSlot slot) :
    (slot.getD .empty).Valid ∧ ∀ n, (slot.getD .empty).block n = slotBlock slot n := by
  cases slot with
  | none => exact ⟨Section.valid_empty, fun n => Section.block_empty⟩
  | some s => exact ⟨h s rfl, fun n => rfl⟩

theorem putSlot_spec {slot : Option Section} (h : ValidSlot slot) {n : Nat} (hn : n < sectionSize)
    (b : Block) :
    ValidSlot (putSlot n b slot) ∧ ∀ m < sectionSize,
      slotBlock (putSlot n b slot) m = if m = n then b else slotBlock slot m := by
  cases slot with
  | some s =>
      obtain ⟨hvalid, hblock⟩ := Section.put_spec (h s rfl) hn b
      exact ⟨validSlot_some hvalid, hblock⟩
  | none =>
      unfold putSlot
      by_cases hair : b.isAir = true
      · -- Air where there is no section changes nothing that can be seen.
        rw [if_pos hair, Block.isAir_iff.mp hair]
        exact ⟨h, fun m _ => (ite_self _).symm⟩
      · obtain ⟨hvalid, hblock⟩ := Section.put_spec Section.valid_empty hn b
        rw [if_neg hair]
        refine ⟨validSlot_some hvalid, fun m hm => ?_⟩
        show (Section.empty.put n b).block m = _
        rw [hblock m hm, Section.block_empty]
        rfl

theorem number_lt (col : Column) {y : Nat} (hy : y < 16) : col.number y < sectionSize := by
  unfold Column.number sectionSize
  omega

/-- The numbers of a column's blocks in a section, lowest first. -/
theorem mem_numbers {col : Column} {m : Nat} (hm : m < sectionSize) :
    m ∈ (List.range 16).map col.number ↔ m % 256 = col.index := by
  unfold sectionSize at hm
  simp only [List.mem_map, List.mem_range, Column.number, Column.index]
  constructor
  · intro ⟨y, hy, heq⟩
    omega
  · intro heq
    exact ⟨m / 256, by omega, by omega⟩

theorem clearIn_eq (col : Column) (s : Section) :
    clearIn col s =
      ((List.range 16).map col.number).foldl (fun s n => (some Block.air).elim s (s.put n)) s := by
  rw [List.foldl_map]
  simp only [Option.elim_some, clearIn]

theorem clearSlot_spec {slot : Option Section} (h : ValidSlot slot) (col : Column) :
    ValidSlot (slot.map (clearIn col)) ∧
      ∀ m < sectionSize, slotBlock (slot.map (clearIn col)) m =
        if m % 256 = col.index then .air else slotBlock slot m := by
  cases slot with
  | none => exact ⟨h, fun m _ => (ite_self _).symm⟩
  | some s =>
      have hnumbers : ∀ n ∈ (List.range 16).map col.number, n < sectionSize := by
        intro n hn
        obtain ⟨y, hy, rfl⟩ := List.mem_map.mp hn
        exact number_lt col (List.mem_range.mp hy)
      obtain ⟨hvalid, hblock⟩ := Section.foldl_put_spec (fun _ => some .air) hnumbers (h s rfl)
      rw [← clearIn_eq] at hvalid hblock
      refine ⟨validSlot_some hvalid, fun m hm => ?_⟩
      rw [Option.map_some, slotBlock_some, slotBlock_some, hblock m hm]
      simp only [mem_numbers hm, Option.getD_some]

/-- The block that laying a section over another puts at a number, if any. -/
def covering (upper : Section) (n : Nat) : Option Block :=
  if (upper.block n).isAir then none else some (upper.block n)

theorem overlaySection_eq (upper base : Section) :
    overlaySection upper base = (List.range sectionSize).foldl
      (fun s n => (covering upper n).elim s (s.put n)) base := by
  have hstep (s : Section) (n : Nat) :
      (covering upper n).elim s (s.put n) =
        if (upper.block n).isAir then s else s.put n (upper.block n) := by
    unfold covering
    split <;> rfl
  simp only [hstep, overlaySection]

theorem overlaySlot_spec {upper base : Option Section} (hupper : ValidSlot upper)
    (hbase : ValidSlot base) :
    ValidSlot (overlaySlot upper base) ∧
      ∀ m < sectionSize, slotBlock (overlaySlot upper base) m =
        if (slotBlock upper m).isAir then slotBlock base m else slotBlock upper m := by
  cases upper with
  | none => exact ⟨hbase, fun m _ => rfl⟩
  | some s =>
      have hs := hupper s rfl
      unfold overlaySlot
      by_cases hempty : s.blockCount = 0
      · -- A section without a block to count has only air to lay over.
        simp only [hempty, if_true]
        refine ⟨hbase, fun m hm => ?_⟩
        have hair : (s.block m).isAir = true := Block.isAir_iff.mpr (hs.block_eq_air hempty hm)
        exact (if_pos hair).symm
      · simp only [hempty, if_false]
        obtain ⟨hvalid, hblock⟩ := getD_empty_spec hbase
        obtain ⟨hdone, hblocks⟩ :=
          Section.foldl_put_spec (covering s) (fun n hn => List.mem_range.mp hn) hvalid
        rw [← overlaySection_eq] at hdone hblocks
        refine ⟨validSlot_some hdone, fun m hm => ?_⟩
        rw [slotBlock_some, slotBlock_some, hblocks m hm, if_pos (List.mem_range.mpr hm), hblock m]
        unfold covering
        split <;> rfl

end Chunk

/-! ### Places -/

namespace Place

theorem number_lt (p : Place) : p.number < sectionSize := Chunk.number_lt ⟨p.x, p.z⟩ (by omega)

theorem number_mod (p : Place) : p.number % 256 = (⟨p.x, p.z⟩ : Column).index := by
  simp only [number, Column.number, Column.index]
  omega

/-- A place is given by its section and its number there. -/
theorem eq_of_layer_number {p q : Place} (hlayer : p.layer = q.layer)
    (hnumber : p.number = q.number) : p = q := by
  obtain ⟨px, py, pz⟩ := p
  obtain ⟨qx, qy, qz⟩ := q
  simp only [layer, number, Column.number, Fin.mk.injEq] at hlayer hnumber
  simp only [Place.mk.injEq, Fin.ext_iff]
  omega

end Place

theorem Column.index_inj {col col' : Column} : col.index = col'.index ↔ col = col' := by
  obtain ⟨x, z⟩ := col
  obtain ⟨x', z'⟩ := col'
  simp only [index, Column.mk.injEq, Fin.ext_iff]
  omega

/-- Every number below 256 is that of a column. -/
theorem Column.exists_index (i : Fin 256) : ∃ col : Column, col.index = i := by
  refine ⟨⟨⟨i % 16, by omega⟩, ⟨i / 16, by omega⟩⟩, Fin.ext ?_⟩
  show i.val / 16 * 16 + i % 16 = i
  omega

namespace Chunk

/-! ### Operations -/

/-- A chunk whose sections are well-formed. -/
def Valid (c : Chunk) : Prop := ∀ i, ValidSlot (c.slot i)

variable {c upper : Chunk}

theorem block_eq_slotBlock (c : Chunk) (p : Place) :
    c.block p = slotBlock (c.slot p.layer) p.number := by
  unfold block slotBlock
  cases c.slot p.layer <;> rfl

theorem valid_empty (coord : ChunkCoord) : (empty coord).Valid := by
  intro i s hs
  simp [empty, slot] at hs

theorem block_empty (coord : ChunkCoord) (p : Place) : (empty coord).block p = .air := by
  rw [block_eq_slotBlock]
  simp [empty, slot, slotBlock]

theorem biome_empty (coord : ChunkCoord) (col : Column) : (empty coord).biome col = none := by
  simp [empty, biome]

theorem slot_modifySection (c : Chunk) (i j : Fin 16) (f : Option Section → Option Section) :
    (c.modifySection i f).slot j = if i = j then f (c.slot j) else c.slot j := by
  simp [modifySection, slot, Array.getElem_modify, Fin.ext_iff]

theorem slot_clear (c : Chunk) (col : Column) (i : Fin 16) :
    (c.clear col).slot i = (c.slot i).map (clearIn col) := by
  simp [clear, slot]

theorem slot_overlay (c upper : Chunk) (i : Fin 16) :
    (c.overlay upper).slot i = overlaySlot (upper.slot i) (c.slot i) := by
  simp [overlay, slot]

/-- **Putting a block** changes the block at one place. -/
theorem put_spec (hc : c.Valid) (p : Place) (b : Block) :
    (c.put p b).Valid ∧ (∀ q, (c.put p b).block q = if q = p then b else c.block q) ∧
      ∀ col, (c.put p b).biome col = c.biome col := by
  obtain ⟨hslot, hblock⟩ := putSlot_spec (hc p.layer) p.number_lt b
  refine ⟨fun i => ?_, fun q => ?_, fun col => rfl⟩
  · rw [put, slot_modifySection]
    split
    · rename_i heq
      rw [← heq]
      exact hslot
    · exact hc i
  · -- Two places are the same if they lie in the same section and have the same number there.
    rw [block_eq_slotBlock, block_eq_slotBlock, put, slot_modifySection]
    by_cases hlayer : p.layer = q.layer
    · rw [if_pos hlayer, ← hlayer, hblock _ q.number_lt]
      by_cases hnumber : q.number = p.number
      · rw [if_pos hnumber, if_pos (Place.eq_of_layer_number hlayer.symm hnumber)]
      · rw [if_neg hnumber, if_neg fun heq => hnumber (by rw [heq])]
    · rw [if_neg hlayer, if_neg fun heq => hlayer (by rw [heq])]

theorem biome_putBiome (c : Chunk) (col col' : Column) (biome : Int32) :
    (c.putBiome col biome).biome col' = if col' = col then some biome else c.biome col' := by
  show (c.biomes.set col.index (some biome))[col'.index] = _
  rw [Fin.getElem_fin, Vector.getElem_set]
  by_cases heq : col' = col
  · rw [if_pos (by rw [heq]), if_pos heq]
  · rw [if_neg (fun h => heq (Column.index_inj.mp (Fin.ext h.symm))), if_neg heq]
    rfl

/-- **Setting a biome** changes the biome of one column. -/
theorem putBiome_spec (hc : c.Valid) (col : Column) (biome : Int32) :
    (c.putBiome col biome).Valid ∧ (∀ q, (c.putBiome col biome).block q = c.block q) ∧ ∀ col',
      (c.putBiome col biome).biome col' = if col' = col then some biome else c.biome col' :=
  ⟨hc, fun _ => rfl, fun col' => c.biome_putBiome col col' biome⟩

/-- **Clearing a column** leaves air at all its heights. -/
theorem clear_spec (hc : c.Valid) (col : Column) :
    (c.clear col).Valid ∧
      (∀ q, (c.clear col).block q = if (⟨q.x, q.z⟩ : Column) = col then .air else c.block q) ∧
      ∀ col', (c.clear col).biome col' = c.biome col' := by
  refine ⟨fun i => ?_, fun q => ?_, fun col' => rfl⟩
  · rw [slot_clear]
    exact (clearSlot_spec (hc i) col).1
  · rw [block_eq_slotBlock, block_eq_slotBlock, slot_clear,
      (clearSlot_spec (hc q.layer) col).2 _ q.number_lt, q.number_mod]
    simp only [← Fin.ext_iff, Column.index_inj]

/-- **Overlaying** takes the blocks of the other chunk that are not air, and the biomes that it has.
-/
theorem overlay_spec (hc : c.Valid) (hupper : upper.Valid) :
    (c.overlay upper).Valid ∧
      (∀ q, (c.overlay upper).block q =
        if (upper.block q).isAir then c.block q else upper.block q) ∧
      ∀ col, (c.overlay upper).biome col = (upper.biome col).or (c.biome col) := by
  refine ⟨fun i => ?_, fun q => ?_, fun col => ?_⟩
  · rw [slot_overlay]
    exact (overlaySlot_spec (hupper i) (hc i)).1
  · rw [block_eq_slotBlock, block_eq_slotBlock, block_eq_slotBlock, slot_overlay,
      (overlaySlot_spec (hupper q.layer) (hc q.layer)).2 _ q.number_lt]
  · simp [overlay, biome]

end Chunk

end Cadastre
