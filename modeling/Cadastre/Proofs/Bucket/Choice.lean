import Cadastre.Proofs.Bucket
import Mathlib.Order.Interval.Finset.Nat
/-!
# Cadastre.Proofs.Bucket.Choice

**The choice by weight.** Laid end to end, each as long as its weight, the shares of a bucket that
was read from a text part the numbers below the sum of the weights among them. The block at a
position is that of the share on which the position's hash falls, reduced modulo the sum, so each
share is chosen by as many residues as its weight says (`Bucket.pick_by_weight`).

`Bucket.choice` makes the same choice in 32-bit numbers, one share after the other, and stops where
such a loop could stumble. For buckets that were read from texts it never does.
-/

namespace Cadastre.Bucket

/-! ### Shares end to end -/

/-- Where a share begins: behind all the shares before it. -/
def start (shares : List Share) (i : Nat) : Nat := ((shares.take i).map Share.weight).sum

/-- Whether a place lies on a share. -/
def Falls (shares : List Share) (i place : Nat) : Prop :=
  start shares i ≤ place ∧ place < start shares (i + 1)

variable {s : Share} {shares rest : List Share} {i j place : Nat}

@[simp] theorem start_zero (shares : List Share) : start shares 0 = 0 := rfl

@[simp] theorem start_cons_succ (s : Share) (rest : List Share) (i : Nat) :
    start (s :: rest) (i + 1) = s.weight + start rest i := by
  simp [start]

theorem start_succ (h : i < shares.length) :
    start shares (i + 1) = start shares i + shares[i].weight := by
  unfold start
  rw [List.take_succ_eq_append_getElem h, List.map_append, List.sum_append]
  simp

theorem start_length (shares : List Share) :
    start shares shares.length = (shares.map Share.weight).sum := by
  rw [start, List.take_length]

theorem start_le_start (h : i ≤ j) : start shares i ≤ start shares j := by
  refine Nat.le_induction (Nat.le_refl _) (fun k _ ih => ih.trans ?_) j h
  by_cases hk : k < shares.length
  · rw [start_succ hk]
    exact Nat.le_add_right _ _
  · rw [start, start, List.take_of_length_le (Nat.le_of_not_lt hk),
      List.take_of_length_le (Nat.le_succ_of_le (Nat.le_of_not_lt hk))]

/-- A place lies on one share only. -/
theorem Falls.unique (hi : Falls shares i place) (hj : Falls shares j place) : i = j := by
  obtain ⟨hfrom, hto⟩ := hi
  obtain ⟨hfrom', hto'⟩ := hj
  rcases Nat.lt_trichotomy i j with hlt | heq | hlt
  · have hle : start shares (i + 1) ≤ start shares j := start_le_start hlt
    omega
  · exact heq
  · have hle : start shares (j + 1) ≤ start shares i := start_le_start hlt
    omega

theorem falls_cons_zero : Falls (s :: rest) 0 place ↔ place < s.weight := by
  simp [Falls]

/-- Behind the first share, a place lies on the shares as it lies on the rest of them. -/
theorem falls_cons_succ : Falls (s :: rest) (i + 1) place ↔
    s.weight ≤ place ∧ Falls rest i (place - s.weight) := by
  simp only [Falls, start_cons_succ]
  omega

/-- A place below the sum of the weights lies on a share. -/
theorem exists_falls (h : place < (shares.map Share.weight).sum) :
    ∃ i, i < shares.length ∧ Falls shares i place := by
  induction shares generalizing place with
  | nil => simp at h
  | cons s rest ih =>
      by_cases hplace : place < s.weight
      · exact ⟨0, Nat.succ_pos _, falls_cons_zero.mpr hplace⟩
      · rw [List.map_cons, List.sum_cons] at h
        have hrest : place - s.weight < (rest.map Share.weight).sum := by omega
        obtain ⟨i, hi, hfalls⟩ := ih hrest
        exact ⟨i + 1, by simpa using hi, falls_cons_succ.mpr ⟨Nat.le_of_not_lt hplace, hfalls⟩⟩

/-- The block at a place is that of the share it lies on. -/
theorem blockAt_of_falls (h : Falls (s :: rest) i place) (hi : i < (s :: rest).length) :
    blockAt s rest place = ((s :: rest)[i]).block := by
  induction rest generalizing s i place with
  | nil =>
      have hzero : i = 0 := by simpa using hi
      subst hzero
      rfl
  | cons next rest ih =>
      rw [blockAt]
      cases i with
      | zero => exact if_pos (falls_cons_zero.mp h)
      | succ i =>
          obtain ⟨hle, hrest⟩ := falls_cons_succ.mp h
          rw [if_neg (Nat.not_lt_of_le hle), List.getElem_cons_succ]
          exact ih hrest (Nat.lt_of_succ_lt_succ hi)

/-! ### The choice in 32 bits -/

/-- What a choice in 32-bit numbers could stumble over. -/
inductive Stumble
  /-- A remainder by zero. -/
  | remainder
  /-- A roll that is less than what is taken off it. -/
  | underflow
  /-- A roll that is not used up when the shares are. -/
  | leftOver
  deriving DecidableEq

/-- What is left of a roll behind a share. -/
def takeOff (roll : UInt32) (s : Share) : Except Stumble UInt32 :=
  if s.weight ≤ roll.toNat then .ok (roll - s.weight.toUInt32) else .error .underflow

/-- The number of the share at which a roll stops that loses the weight of each share it passes. -/
def walk : List Share → UInt32 → Except Stumble Nat
  | [], _ => .error .leftOver
  | s :: rest, roll =>
    if roll.toNat < s.weight then .ok 0
    else do
      let left ← takeOff roll s
      let i ← walk rest left
      return i + 1

/-- The number of the share that a hash chooses. Where there is only one, no walk is made. -/
def choice (b : Bucket) (hash : UInt32) : Except Stumble Nat :=
  if b.isSingle then .ok 0
  else if b.total.toUInt32 = 0 then .error .remainder
  else walk b.shares (hash % b.total.toUInt32)

theorem toNat_toUInt32 {n : Nat} (h : n ≤ maxWeight) : n.toUInt32.toNat = n :=
  UInt32.toNat_ofNat_of_lt' (Nat.lt_succ_of_le h)

/-- The walk stops at the share on which the roll falls, without a stumble on the way. -/
theorem walk_of_falls {roll : UInt32} (hfit : ∀ s ∈ shares, s.weight ≤ maxWeight)
    (hi : i < shares.length) (h : Falls shares i roll.toNat) : walk shares roll = .ok i := by
  induction shares generalizing roll i with
  | nil => exact absurd hi (Nat.not_lt_zero i)
  | cons s rest ih =>
      rw [walk]
      cases i with
      | zero => exact if_pos (falls_cons_zero.mp h)
      | succ i =>
          obtain ⟨hle, hrest⟩ := falls_cons_succ.mp h
          have hweight := toNat_toUInt32 (hfit s List.mem_cons_self)
          have hleft : (roll - s.weight.toUInt32).toNat = roll.toNat - s.weight := by
            rw [UInt32.toNat_sub_of_le, hweight]
            rwa [UInt32.le_iff_toNat_le, hweight]
          have htake : takeOff roll s = .ok (roll - s.weight.toUInt32) := if_pos hle
          rw [← hleft] at hrest
          rw [if_neg (Nat.not_lt_of_le hle), htake]
          have hwalk := ih (fun s hs => hfit s (List.mem_cons_of_mem _ hs))
            (Nat.lt_of_succ_lt_succ hi) hrest
          show (walk rest (roll - s.weight.toUInt32) >>= fun i => pure (i + 1)) = _
          rw [hwalk]
          rfl

/-! ### Buckets that were read -/

namespace Readable

variable {b : Bucket}

theorem total_pos (h : b.Readable) : 0 < b.total := by
  have hfirst := (h.shares b.first List.mem_cons_self).2.1
  rw [total_eq_sum, Bucket.shares, List.map_cons, List.sum_cons]
  omega

theorem weight_le (h : b.Readable) : ∀ s ∈ b.shares, s.weight ≤ maxWeight :=
  fun s hs => (h.shares s hs).2.2

/-- A residue walks to the share it falls on. -/
theorem walk_eq_ok_iff (h : b.Readable) (hi : i < b.shares.length) (hplace : place < b.total) :
    walk b.shares place.toUInt32 = .ok i ↔ Falls b.shares i place := by
  have hroll : place.toUInt32.toNat = place := toNat_toUInt32 (hplace.le.trans h.total_le)
  have hwalk {j : Nat} (hj : j < b.shares.length) (hfalls : Falls b.shares j place) :
      walk b.shares place.toUInt32 = .ok j :=
    walk_of_falls h.weight_le hj (by rwa [hroll])
  constructor
  · intro heq
    obtain ⟨j, hj, hfalls⟩ := exists_falls (by rwa [← total_eq_sum])
    rw [hwalk hj hfalls] at heq
    rwa [← Except.ok.inj heq]
  · exact hwalk hi

/-- As many residues walk to a share as its weight says. -/
theorem card_walk (h : b.Readable) (hi : i < b.shares.length) :
    ((Finset.range b.total).filter fun place => walk b.shares place.toUInt32 = .ok i).card =
      b.shares[i].weight := by
  have hend : start b.shares (i + 1) ≤ b.total := by
    rw [total_eq_sum, ← start_length]
    exact start_le_start hi
  have hplaces : ((Finset.range b.total).filter fun place =>
      walk b.shares place.toUInt32 = .ok i) =
        Finset.Ico (start b.shares i) (start b.shares (i + 1)) := by
    ext place
    simp only [Finset.mem_filter, Finset.mem_range, Finset.mem_Ico]
    constructor
    · rintro ⟨hplace, hwalk⟩
      exact (h.walk_eq_ok_iff hi hplace).mp hwalk
    · intro hfalls
      have hplace : place < b.total := hfalls.2.trans_le hend
      exact ⟨hplace, (h.walk_eq_ok_iff hi hplace).mpr hfalls⟩
  rw [hplaces, Nat.card_Ico, start_succ hi, Nat.add_sub_cancel_left]

end Readable

/-- **The choice by weight.** Let a text be read as a bucket. The sum of its weights is positive and
of 32 bits. The hash of a position, modulo the sum, falls on exactly one of the shares laid end to
end; the block at the position is that share's; and the choice in 32-bit numbers stops at that
share, as does the walk that it spares itself for a bucket of one share: no remainder is taken by
zero, no roll is less than what is taken off it, and no roll is left when the shares are used up. Of
the residues modulo the sum as many walk to a share as its weight says. -/
theorem pick_by_weight {text : String} {b : Bucket} (h : parse text = .ok b) :
    (0 < b.total ∧ b.total = (b.shares.map Share.weight).sum ∧ b.total ≤ maxWeight) ∧
    (∀ x y z : Int32, ∃! i : Fin b.shares.length,
      Falls b.shares i ((positionHash x y z).toNat % b.total)) ∧
    (∀ (x y z : Int32) (i : Fin b.shares.length),
      Falls b.shares i ((positionHash x y z).toNat % b.total) →
        b.pick x y z = b.shares[i].block ∧ b.choice (positionHash x y z) = .ok i.val ∧
          walk b.shares (positionHash x y z % b.total.toUInt32) = .ok i.val) ∧
    ∀ i : Fin b.shares.length,
      ((Finset.range b.total).filter fun place => walk b.shares place.toUInt32 = .ok i.val).card =
        b.shares[i].weight := by
  have hreadable := readable_of_parse h
  have hpos := hreadable.total_pos
  have htotal : b.total.toUInt32.toNat = b.total := toNat_toUInt32 hreadable.total_le
  refine ⟨⟨hpos, b.total_eq_sum, hreadable.total_le⟩, ?_, ?_, fun i => hreadable.card_walk i.isLt⟩
  · intro x y z
    have hplace := Nat.mod_lt (positionHash x y z).toNat hpos
    rw [b.total_eq_sum] at hplace
    obtain ⟨i, hi, hfalls⟩ := exists_falls hplace
    rw [← b.total_eq_sum] at hfalls
    exact ⟨⟨i, hi⟩, hfalls, fun j hj => Fin.ext (hj.unique hfalls)⟩
  · intro x y z i hfalls
    have hroll : (positionHash x y z % b.total.toUInt32).toNat =
        (positionHash x y z).toNat % b.total := by
      rw [UInt32.toNat_mod, htotal]
    have hwalk : walk b.shares (positionHash x y z % b.total.toUInt32) = .ok i.val :=
      walk_of_falls hreadable.weight_le i.isLt (by rwa [hroll])
    refine ⟨blockAt_of_falls hfalls i.isLt, ?_, hwalk⟩
    unfold choice
    split
    · rename_i hsingle
      have hrest : b.rest = [] := List.isEmpty_iff.mp hsingle
      have hone : b.shares.length = 1 := by simp [Bucket.shares, hrest]
      have hzero : i.val = 0 := by omega
      rw [hzero]
    · rw [if_neg, hwalk]
      intro hzero
      rw [hzero] at htotal
      exact absurd htotal.symm (Nat.ne_of_gt hpos)

/-- Three shares of two blocks. -/
def veined : Bucket := ⟨⟨.stone, 4⟩, [⟨.dirt, 1⟩, ⟨.stone, 2⟩]⟩

/-- At one place the hash falls on the one residue of the second share, at another on a residue of
the third, to which two of the seven residues walk. -/
theorem pick_by_weight_veined :
    parse "stone:4,dirt,stone:2" = .ok veined ∧
      (Falls veined.shares 1 ((positionHash 5 64 (-3)).toNat % veined.total) ∧
        veined.pick 5 64 (-3) = .dirt ∧ veined.choice (positionHash 5 64 (-3)) = .ok 1) ∧
      (Falls veined.shares 2 ((positionHash 7 64 (-3)).toNat % veined.total) ∧
        veined.pick 7 64 (-3) = .stone ∧ veined.choice (positionHash 7 64 (-3)) = .ok 2) ∧
      ((Finset.range veined.total).filter fun place =>
        walk veined.shares place.toUInt32 = .ok 2).card = 2 := by
  have hread : parse "stone:4,dirt,stone:2" = .ok veined := rfl
  obtain ⟨-, -, hchosen, hcount⟩ := pick_by_weight hread
  have hsecond : Falls veined.shares 1 ((positionHash 5 64 (-3)).toNat % veined.total) :=
    ⟨by decide, by decide⟩
  have hthird : Falls veined.shares 2 ((positionHash 7 64 (-3)).toNat % veined.total) :=
    ⟨by decide, by decide⟩
  obtain ⟨hdirt, hone, -⟩ := hchosen 5 64 (-3) ⟨1, by decide⟩ hsecond
  obtain ⟨hstone, htwo, -⟩ := hchosen 7 64 (-3) ⟨2, by decide⟩ hthird
  exact ⟨hread, ⟨hsecond, hdirt, hone⟩, ⟨hthird, hstone, htwo⟩, hcount ⟨2, by decide⟩⟩

end Cadastre.Bucket
