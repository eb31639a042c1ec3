import Cadastre.Failure
/-!
# Cadastre.Arithmetic

**Checked arithmetic.** A sum, difference or product is computed exactly and accepted only where it
is a 32-bit number; otherwise the computation is cut off and says which operation it was. A sum of
counts may be any number of 64 bits without a sign.
-/

namespace Cadastre

/-- The integers that are 32-bit numbers. -/
def Fits (n : Int) : Prop := -2147483648 ≤ n ∧ n ≤ 2147483647

instance (n : Int) : Decidable (Fits n) := inferInstanceAs (Decidable (_ ∧ _))

namespace Int32

theorem toInt_ofInt_of_fits {n : Int} (h : Fits n) : (Int32.ofInt n).toInt = n := by
  have bounds : -2147483648 ≤ n ∧ n ≤ 2147483647 := h
  rw [Int32.toInt_ofInt, Int.bmod_eq_of_le] <;> simp [Int32.size] <;> omega

theorem fits_toInt (a : Int32) : Fits a.toInt := by
  have low := a.minValue_le_toInt
  have high := a.toInt_le
  simp only [Int32.toInt_minValue, Int32.toInt_maxValue] at low high
  constructor <;> omega

/-- A wrapping sum that fits is the exact one. -/
theorem toInt_add_of_fits {a b : Int32} (h : Fits (a.toInt + b.toInt)) :
    (a + b).toInt = a.toInt + b.toInt := by
  rw [← toInt_ofInt_of_fits h, Int32.ofInt_add, Int32.ofInt_toInt, Int32.ofInt_toInt]

/-- A wrapping difference that fits is the exact one. -/
theorem toInt_sub_of_fits {a b : Int32} (h : Fits (a.toInt - b.toInt)) :
    (a - b).toInt = a.toInt - b.toInt := by
  rw [← toInt_ofInt_of_fits h, Int32.ofInt_sub, Int32.ofInt_toInt, Int32.ofInt_toInt]

/-- Of numbers that are not negative, a quotient is rounded down. -/
theorem toInt_div_of_nonneg {a b : Int32} (ha : 0 ≤ a.toInt) :
    (a / b).toInt = a.toInt / b.toInt := by
  have hmin : a ≠ Int32.minValue := by
    rintro rfl
    exact absurd ha (by decide)
  rw [Int32.toInt_div_of_ne_left a b hmin, Int.tdiv_eq_ediv_of_nonneg ha]

theorem toInt_max (a b : Int32) : (max a b).toInt = max a.toInt b.toInt := by
  show (if a ≤ b then b else a).toInt = _
  rw [Int.max_def]
  simp only [Int32.le_iff_toInt_le, apply_ite Int32.toInt]

theorem toInt_min (a b : Int32) : (min a b).toInt = min a.toInt b.toInt := by
  show (if a ≤ b then a else b).toInt = _
  rw [Int.min_def]
  simp only [Int32.le_iff_toInt_le, apply_ite Int32.toInt]

end Int32

/-- The 32-bit number equal to an exact result, or the overflow of the operation that made it. -/
def exact (op : Overflow) (n : Int) : Except Failure Int32 :=
  if Fits n then .ok (Int32.ofInt n) else .error (.abort (.overflow op))

/-- The 32-bit number equal to an integer, if there is one. -/
def fit? (n : Int) : Option Int32 := if Fits n then some (Int32.ofInt n) else none

namespace Checked

def add (a b : Int32) : Except Failure Int32 := exact .add (a.toInt + b.toInt)
def sub (a b : Int32) : Except Failure Int32 := exact .sub (a.toInt - b.toInt)
def mul (a b : Int32) : Except Failure Int32 := exact .mul (a.toInt * b.toInt)

/-- The absolute value. Only that of the least number is out of range. -/
def abs (a : Int32) : Except Failure Int32 := exact .neg a.toInt.natAbs

/-- A sum of counts. The sums on the way to it are no larger, so it alone decides whether one of
them leaves the range. -/
def count (n : Nat) : Except Failure Nat :=
  if n < UInt64.size then .ok n else .error (.abort (.overflow .add))

end Checked

/-- A checked result is the exact one. -/
theorem exact_eq_ok_iff {op : Overflow} {n : Int} {a : Int32} :
    exact op n = .ok a ↔ a.toInt = n := by
  unfold exact
  split
  · rename_i h
    constructor
    · intro e
      cases e
      exact Int32.toInt_ofInt_of_fits h
    · rintro rfl
      simp
  · rename_i h
    refine ⟨fun e => (nomatch e), ?_⟩
    rintro rfl
    exact absurd (Int32.fits_toInt a) h

/-- One more than a number is out of range for the greatest number only. -/
theorem Checked.add_one (n : Int32) :
    Checked.add n 1 = if n.toInt = 2147483647 then .error (.abort (.overflow .add))
      else .ok (Int32.ofInt (n.toInt + 1)) := by
  obtain ⟨hlow, hhigh⟩ := Int32.fits_toInt n
  have hfits : Fits (n.toInt + 1) ↔ n.toInt ≠ 2147483647 := by
    unfold Fits
    omega
  show exact .add (n.toInt + 1) = _
  unfold exact
  simp only [hfits, ite_not]

end Cadastre
