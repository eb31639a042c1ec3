import Cadastre.Chunk.Encoding
import Cadastre.Proofs.Chunk.History
/-!
# Cadastre.Proofs.Chunk.Decoding

**The bytes of a chunk read back.** A `Reader` takes a value off the front of some bytes and leaves
the rest. `Chunk.decode?` is made of readers, one for each part of the format, and gives back the
chunk that was written, down to its palettes and the words of its storages.

Design points:

* Nothing marks the end of a part. A reader knows it beforehand: from a fixed size, from a count
  that stands in front, from the mask, or from the high bit of a byte. So a reader never depends on
  what follows (`Reader.Reads`), and reading a whole is reading its parts in turn.
* A biome of -1 is written like one that is not set. It is the only thing that the bytes do not tell
  apart.
-/

namespace Cadastre

/-- Takes a value off the front of bytes and leaves the rest, unless the bytes end too early. -/
abbrev Reader (α : Type) := StateT (List UInt8) Option α

namespace Reader

variable {α β : Type}

/-! ### Reading parts in turn -/

/-- Bytes stand for a value: whatever follows them, the reader takes off just these bytes and gives
that value. -/
def Reads (r : Reader α) (bytes : List UInt8) (a : α) : Prop :=
  ∀ rest, r.run (bytes ++ rest) = some (a, rest)

theorem reads_pure (a : α) : Reads (pure a) [] a := by
  intro rest
  rfl

theorem Reads.bind {r : Reader α} {f : α → Reader β} {front back : List UInt8} {a : α} {b : β}
    (h : r.Reads front a) (hf : (f a).Reads back b) : Reads (r >>= f) (front ++ back) b := by
  intro rest
  rw [List.append_assoc, StateT.run_bind, h]
  exact hf rest

/-- The last part of a whole. -/
theorem Reads.map {r : Reader α} {bytes : List UInt8} {a : α} (h : r.Reads bytes a) (f : α → β) :
    Reads (do return f (← r)) bytes (f a) := by
  have hall := h.bind (f := fun a => pure (f a)) (reads_pure (f a))
  rwa [List.append_nil] at hall

/-- As many values as a number says, one after the other. -/
def times (r : Reader α) : Nat → Reader (List α)
  | 0 => pure []
  | n + 1 => do
    let a ← r
    return a :: (← times r n)

theorem reads_times {r : Reader α} {write : α → List UInt8} {l : List α}
    (h : ∀ a ∈ l, r.Reads (write a) a) : (r.times l.length).Reads (l.flatMap write) l := by
  induction l with
  | nil => exact reads_pure []
  | cons a rest ih =>
      have hrest : ∀ a' ∈ rest, r.Reads (write a') a' := by
        intro a' ha'
        exact h a' (List.mem_cons_of_mem a ha')
      rw [List.flatMap_cons]
      exact (h a List.mem_cons_self).bind ((ih hrest).map _)

/-! ### Numbers -/

/-- The next byte. -/
def byte : Reader UInt8
  | [] => none
  | b :: rest => some (b, rest)

theorem reads_byte (b : UInt8) : byte.Reads [b] b := by
  intro rest
  rfl

/-- A number of some bytes, the highest first. -/
def bigEndian : Nat → Reader Nat
  | 0 => pure 0
  | size + 1 => do
    let high ← byte
    return high.toNat * 256 ^ size + (← bigEndian size)

theorem bytes_bigEndian_succ (size n : Nat) :
    Bytes.bigEndian (size + 1) n =
      [(n >>> (8 * size)).toUInt8] ++ Bytes.bigEndian size n := by
  simp only [Bytes.bigEndian, List.range_succ_eq_map, List.map_cons, List.map_map]
  congr 1
  apply List.map_congr_left
  intro i hi
  simp only [Function.comp_apply]
  congr 3
  omega

/-- Of a number that is too large for its bytes the lowest ones are left. -/
theorem reads_bigEndian_mod (size n : Nat) :
    (bigEndian size).Reads (Bytes.bigEndian size n) (n % 256 ^ size) := by
  induction size with
  | zero =>
      rw [Nat.pow_zero, Nat.mod_one]
      exact reads_pure 0
  | succ size ih =>
      have hhigh : (n >>> (8 * size)).toUInt8.toNat = n / 256 ^ size % 256 := by
        rw [Nat.shiftRight_eq_div_pow, Nat.pow_mul]
        rfl
      have hsplit : n % 256 ^ (size + 1) =
          (n >>> (8 * size)).toUInt8.toNat * 256 ^ size + n % 256 ^ size := by
        rw [hhigh, Nat.pow_succ, Nat.mod_mul, Nat.mul_comm, Nat.add_comm]
      rw [bytes_bigEndian_succ, hsplit]
      exact (reads_byte _).bind (ih.map _)

theorem reads_bigEndian (size : Nat) {n : Nat} (h : n < 256 ^ size) :
    (bigEndian size).Reads (Bytes.bigEndian size n) n := by
  have hmod := reads_bigEndian_mod size n
  rwa [Nat.mod_eq_of_lt h] at hmod

/-- A number in groups of seven bits. The byte without a high bit is its last. -/
def grouped : List UInt8 → Option (Nat × List UInt8)
  | [] => none
  | b :: rest =>
    if b < 128 then some (b.toNat, rest)
    else (grouped rest).map fun (n, rest) => (b.toNat - 128 + 128 * n, rest)

theorem reads_grouped (n : Nat) : Reads grouped (Bytes.grouped n) n := by
  induction n using Nat.strongRecOn with
  | ind n ih =>
      intro rest
      rw [Bytes.grouped]
      by_cases hlast : n < 128
      · have hbyte : n.toUInt8.toNat = n := Nat.mod_eq_of_lt (by omega)
        have hlt : n.toUInt8 < 128 := by
          rw [UInt8.lt_iff_toNat_lt, hbyte]
          exact hlast
        rw [if_pos hlast]
        show grouped (n.toUInt8 :: rest) = _
        rw [grouped, if_pos hlt, hbyte]
      · have hbyte : (128 + n % 128).toUInt8.toNat = 128 + n % 128 := Nat.mod_eq_of_lt (by omega)
        have hge : ¬ (128 + n % 128).toUInt8 < 128 := by
          rw [UInt8.lt_iff_toNat_lt, hbyte]
          exact Nat.not_lt.mpr (Nat.le_add_right 128 _)
        have hhigher : grouped (Bytes.grouped (n / 128) ++ rest) = some (n / 128, rest) :=
          ih (n / 128) (by omega) rest
        rw [if_neg hlast]
        show grouped ((128 + n % 128).toUInt8 :: (Bytes.grouped (n / 128) ++ rest)) = _
        rw [grouped, if_neg hge, hhigher, hbyte, Option.map_some, Nat.add_sub_cancel_left]
        exact congrArg (fun m => some (m, rest)) (Nat.mod_add_div n 128)

/-- A 32-bit number in two's complement. -/
def int32 : Reader Int32 := do return (UInt32.ofNat (← bigEndian 4)).toInt32

theorem reads_int32 (n : Int32) : int32.Reads (Bytes.int32 n) n := by
  have hword := (reads_bigEndian 4 n.toUInt32.toNat_lt).map
    fun n => (UInt32.ofNat n).toInt32
  rwa [UInt32.ofNat_toNat, Int32.toInt32_toUInt32] at hword

/-! ### Sections -/

/-- An entry of a palette. -/
def block : Reader Block := do return ⟨UInt16.ofNat (← grouped)⟩

theorem reads_block (b : Block) : block.Reads (Bytes.grouped b.id.toNat) b := by
  have hid := (reads_grouped b.id.toNat).map fun n => (⟨UInt16.ofNat n⟩ : Block)
  rwa [UInt16.ofNat_toNat] at hid

/-- A word of a storage. -/
def word : Reader UInt64 := do return UInt64.ofNat (← bigEndian 8)

theorem reads_word (w : UInt64) : word.Reads (Bytes.bigEndian 8 w.toNat) w := by
  have hword := (reads_bigEndian 8 w.toNat_lt).map UInt64.ofNat
  rwa [UInt64.ofNat_toNat] at hword

/-- A section. -/
def sectionOf : Reader Section := do
  let blockCount ← bigEndian 2
  let width ← bigEndian 1
  let palette ← block.times (← grouped)
  let words ← word.times (← grouped)
  return ⟨blockCount, palette.toArray, width, words.toArray⟩

theorem reads_sectionOf {s : Section} (hs : s.Valid) : sectionOf.Reads s.bytes s := by
  have hcount : s.blockCount < 256 ^ 2 := by
    rw [hs.count]
    exact lt_of_le_of_lt (Finset.card_filter_le _ _) (by rw [Finset.card_range]; decide)
  have hwidth : s.indices.width < 256 ^ 1 := lt_of_le_of_lt hs.width_le (by decide)
  have hpalette := reads_times (l := s.palette.toList) fun b _ => reads_block b
  have hwords := reads_times (l := s.indices.words.toList) fun w _ => reads_word w
  simp only [sectionOf, Section.bytes, List.append_assoc]
  refine (reads_bigEndian 2 hcount).bind ?_
  refine (reads_bigEndian 1 hwidth).bind ?_
  refine (reads_grouped s.palette.size).bind ?_
  refine hpalette.bind ?_
  refine (reads_grouped s.indices.words.size).bind ?_
  exact hwords.map _

/-! ### Chunks -/

/-- The slots that a mask tells of, lowest first. A slot without a section takes no bytes. -/
def slots : Nat → Nat → Reader (List (Option Section))
  | 0, _ => pure []
  | n + 1, mask => do
    let slot ← if mask % 2 = 1 then some <$> sectionOf else pure none
    return slot :: (← slots n (mask / 2))

/-- The mask of some slots. -/
def maskOf (l : List (Option Section)) : Nat :=
  l.foldr (fun s n => (if s.isSome then 1 else 0) + 2 * n) 0

theorem maskOf_none_cons (rest : List (Option Section)) :
    maskOf (none :: rest) = 2 * maskOf rest := Nat.zero_add _

theorem maskOf_some_cons (s : Section) (rest : List (Option Section)) :
    maskOf (some s :: rest) = 1 + 2 * maskOf rest := rfl

theorem maskOf_lt (l : List (Option Section)) : maskOf l < 2 ^ l.length := by
  induction l with
  | nil => decide
  | cons slot rest ih =>
      rw [List.length_cons, Nat.pow_succ]
      cases slot with
      | none =>
          rw [maskOf_none_cons]
          omega
      | some s =>
          rw [maskOf_some_cons]
          omega

theorem reads_slots {l : List (Option Section)} (h : ∀ slot ∈ l, Chunk.ValidSlot slot) :
    (slots l.length (maskOf l)).Reads ((l.filterMap id).flatMap Section.bytes) l := by
  induction l with
  | nil => exact reads_pure []
  | cons slot rest ih =>
      have hrest := ih fun slot' hslot' => h slot' (List.mem_cons_of_mem slot hslot')
      rw [List.length_cons, slots]
      cases slot with
      | none =>
          have hbit : ¬ maskOf (none :: rest) % 2 = 1 := by
            rw [maskOf_none_cons]
            omega
          have hhalf : maskOf (none :: rest) / 2 = maskOf rest := by
            rw [maskOf_none_cons]
            omega
          rw [if_neg hbit, hhalf]
          exact (reads_pure none).bind (hrest.map _)
      | some s =>
          have hbit : maskOf (some s :: rest) % 2 = 1 := by
            rw [maskOf_some_cons]
            omega
          have hhalf : maskOf (some s :: rest) / 2 = maskOf rest := by
            rw [maskOf_some_cons]
            omega
          have hs := h (some s) List.mem_cons_self s rfl
          rw [if_pos hbit, hhalf]
          exact ((reads_sectionOf hs).map some).bind (hrest.map _)

/-- The biome of a column. -/
def biome : Reader (Option Int32) := do
  let n ← int32
  return if n = -1 then none else some n

theorem reads_biome {biome? : Option Int32} (h : biome? ≠ some (-1)) :
    biome.Reads (Bytes.int32 (biome?.getD (-1))) biome? := by
  have hread := (reads_int32 (biome?.getD (-1))).map fun n => if n = -1 then none else some n
  cases biome? with
  | none => exact hread
  | some n =>
      have hne : n ≠ -1 := by
        intro heq
        exact h (congrArg some heq)
      rw [Option.getD_some, if_neg hne] at hread
      exact hread

/-- A chunk. -/
def chunk : Reader Chunk := do
  let x ← int32
  let z ← int32
  let sections ← slots 16 (← bigEndian 2)
  let biomes ← biome.times 256
  return ⟨⟨x, z⟩, .ofFn fun i => sections.getD i none, .ofFn fun i => biomes.getD i none⟩

end Reader

namespace Chunk

/-- The chunk that bytes stand for, if they are those of a chunk and nothing more. -/
def decode? (bytes : List UInt8) : Option Chunk :=
  match Reader.chunk.run bytes with
  | some (c, []) => some c
  | _ => none

theorem ofFn_getD_toList {α : Type} {n : Nat} (v : Vector (Option α) n) :
    (Vector.ofFn fun i : Fin n => v.toList.getD i none) = v := by
  ext1 i hi
  simp

theorem reads_chunk {c : Chunk} (hc : c.Valid) (hbiomes : ∀ col, c.biome col ≠ some (-1)) :
    Reader.chunk.Reads c.bytes c := by
  have hslots := Reader.reads_slots (l := c.sections.toList) <| by
    intro slot hslot
    rw [toList_sections, List.mem_ofFn] at hslot
    obtain ⟨i, rfl⟩ := hslot
    exact hc i
  have hbiome : (Reader.biome.times c.biomes.toList.length).Reads
      (c.biomes.toList.flatMap fun biome => Bytes.int32 (biome.getD (-1))) c.biomes.toList := by
    refine Reader.reads_times fun biome hmem => Reader.reads_biome ?_
    obtain ⟨i, hi, rfl⟩ := List.mem_iff_getElem.mp hmem
    rw [Vector.length_toList] at hi
    obtain ⟨col, hcol⟩ := Column.exists_index ⟨i, hi⟩
    have hindex : i = col.index := congrArg Fin.val hcol.symm
    subst hindex
    exact hbiomes col
  have hmask : c.mask < 256 ^ 2 := by
    have hlt := Reader.maskOf_lt c.sections.toList
    rwa [Vector.length_toList] at hlt
  rw [Vector.length_toList] at hslots hbiome
  have hread := hbiome.map fun biomes =>
    (⟨c.coord, .ofFn fun i => c.sections.toList.getD i none, .ofFn fun i => biomes.getD i none⟩ :
      Chunk)
  have hwhole : (⟨c.coord, .ofFn fun i => c.sections.toList.getD i none,
      .ofFn fun i => c.biomes.toList.getD i none⟩ : Chunk) = c := by
    rw [ofFn_getD_toList, ofFn_getD_toList]
  rw [hwhole] at hread
  simp only [Reader.chunk, bytes, List.append_assoc]
  refine (Reader.reads_int32 c.coord.x).bind ?_
  refine (Reader.reads_int32 c.coord.z).bind ?_
  refine (Reader.reads_bigEndian 2 hmask).bind ?_
  refine hslots.bind ?_
  exact hread

end Chunk

/-- **The bytes of a chunk lose nothing.** Let a chunk have been made by any writes, and let no
column have the biome -1. Decoding its bytes gives back the chunk itself: its coordinates, the
sections that exist with their counts, widths, palettes and words, and every biome that was set. So
another such chunk with the same bytes is the same chunk. -/
theorem History.decode_bytes (h : History) (hbiomes : ∀ col, h.chunk.biome col ≠ some (-1)) :
    Chunk.decode? h.chunk.bytes = some h.chunk ∧
      ∀ h' : History, (∀ col, h'.chunk.biome col ≠ some (-1)) →
        h'.chunk.bytes = h.chunk.bytes → h'.chunk = h.chunk := by
  have hdecode (h : History) (hbiomes : ∀ col, h.chunk.biome col ≠ some (-1)) :
      Chunk.decode? h.chunk.bytes = some h.chunk := by
    have hread := Chunk.reads_chunk h.depicts.valid hbiomes []
    rw [List.append_nil] at hread
    simp only [Chunk.decode?, hread]
  refine ⟨hdecode h hbiomes, fun h' hbiomes' hbytes => ?_⟩
  have hsame := hdecode h' hbiomes'
  rw [hbytes, hdecode h hbiomes] at hsame
  exact (Option.some.inj hsame).symm

/-- A chunk with a biome in one column and a block in another. -/
def History.pebble : History := ((History.new ⟨2, -1⟩).setBiome 4 5 7).setBlock 3 70 5 .stone

theorem History.decode_bytes_pebble :
    (∀ col, History.pebble.chunk.biome col ≠ some (-1)) ∧
      Chunk.decode? History.pebble.chunk.bytes = some History.pebble.chunk ∧
      ((History.pebble.setBiome 16 5 (-1)).chunk.bytes = History.pebble.chunk.bytes →
        (History.pebble.setBiome 16 5 (-1)).chunk = History.pebble.chunk) := by
  have hbiomes : ∀ col, History.pebble.chunk.biome col ≠ some (-1) := by
    intro col
    have hpainted : History.pebble.picture.biome col.x col.z =
        if (col.x : Int) = 4 ∧ (col.z : Int) = 5 then some 7 else none := rfl
    rw [History.pebble.depicts.biome col, hpainted]
    split <;> decide
  obtain ⟨hdecode, hequal⟩ := History.decode_bytes History.pebble hbiomes
  -- The column of the second biome is refused, so the chunk stays as it is.
  exact ⟨hbiomes, hdecode, hequal (History.pebble.setBiome 16 5 (-1)) hbiomes⟩

end Cadastre
