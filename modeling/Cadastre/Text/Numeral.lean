/-!
# Cadastre.Text.Numeral

**Decimal numerals** of whole numbers, as people write them in settings and as the program prints
them. Digits are the ten ASCII digits; a signed numeral may begin with one `+` or `-`.
-/

namespace Cadastre.Text.Numeral

/-- The number that a run of digits writes; `none` for an empty run or any other character. -/
def nat? (s : List Char) : Option Nat :=
  if s ≠ [] ∧ s.all Char.isDigit then some (Nat.ofDigitChars 10 s 0) else none

/-- The number that a signed numeral writes. -/
def int? : List Char → Option Int
  | '-' :: s => (nat? s).map fun n => -(n : Int)
  | '+' :: s => (nat? s).map Int.ofNat
  | s => (nat? s).map Int.ofNat

/-- The digits of a natural number, without leading zeros. -/
def ofNat (n : Nat) : List Char := Nat.toDigits 10 n

/-- The numeral of an integer: a minus sign where it is negative, then the digits. -/
def ofInt : Int → List Char
  | .ofNat n => ofNat n
  | .negSucc n => '-' :: ofNat (n + 1)

theorem ofNat_ne_nil (n : Nat) : ofNat n ≠ [] := by
  simp [ofNat]

theorem isDigit_of_mem_ofNat {n : Nat} {c : Char} (h : c ∈ ofNat n) : c.isDigit = true :=
  Nat.isDigit_of_mem_toDigits (by decide) (by decide) h

/-- A printed natural number reads back. -/
@[simp] theorem nat?_ofNat (n : Nat) : nat? (ofNat n) = some n := by
  have digits : (ofNat n).all Char.isDigit = true :=
    List.all_eq_true.2 fun _ h => isDigit_of_mem_ofNat h
  rw [nat?, if_pos ⟨ofNat_ne_nil n, digits⟩, ofNat, Nat.ofDigitChars_ten_toDigits]

end Cadastre.Text.Numeral

namespace Cadastre

/-- The numeral of an integer as a string. -/
def numeral (n : Int) : String := String.ofList (Text.Numeral.ofInt n)

end Cadastre
