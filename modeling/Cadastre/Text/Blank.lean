/-!
# Cadastre.Text.Blank

**Blanks and letter case** in texts that people write. A blank is a character with the Unicode
property White_Space; letters are folded to lower case in ASCII only.
-/

namespace Cadastre.Text

/-- The characters with the property White_Space, as inclusive ranges of code points. -/
def blankRanges : List (Nat × Nat) :=
  [(0x09, 0x0D), (0x20, 0x20), (0x85, 0x85), (0xA0, 0xA0), (0x1680, 0x1680), (0x2000, 0x200A),
    (0x2028, 0x2029), (0x202F, 0x202F), (0x205F, 0x205F), (0x3000, 0x3000)]

/-- Whether a character is a blank. -/
def isBlank (c : Char) : Bool :=
  blankRanges.any fun (low, high) => low ≤ c.toNat && c.toNat ≤ high

/-- A text without the blanks at its two ends. -/
def trimList (s : List Char) : List Char :=
  ((s.dropWhile isBlank).reverse.dropWhile isBlank).reverse

/-- A text without the blanks at its two ends. -/
def trim (s : String) : String := String.ofList (trimList s.toList)

/-- A text with its ASCII capital letters made small. -/
def lower (s : String) : String := String.ofList (s.toList.map Char.toLower)

/-- A keyword as people may write it: blanks around it and the case of ASCII letters are of no
account. -/
def keyword (s : String) : String := lower (trim s)

@[simp] theorem trimList_nil : trimList [] = [] := rfl

end Cadastre.Text
