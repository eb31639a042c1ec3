/-!
# Cadastre.Json.Token

The **lexemes of JSON text**. `scan` cuts a text into lexemes and stops at the first place where
none begins, which it marks with `bad`.

A string is read in two steps: `stringPieces` finds its end and undoes the escapes, `joinPieces`
puts halves of surrogate pairs together. Half a pair on its own is no character, so such a string is
a lexeme without a value.
-/

namespace Cadastre.Json

inductive Token
  | openObject
  | closeObject
  | openArray
  | closeArray
  | colon
  | comma
  | null
  | bool (b : Bool)
  | int (n : Int)
  /-- A number with a fraction or an exponent, or zero with a minus sign. -/
  | real
  /-- A string, without a value where an escape is half a surrogate pair. -/
  | str (s : Option String)
  /-- The place where the text stops being JSON. -/
  | bad
  deriving DecidableEq, Repr

/-- The blanks of JSON. -/
def isBlank (c : Char) : Bool := c = ' ' || c = '\t' || c = '\n' || c = '\r'

/-! ### Strings -/

/-- A piece of a string: a character, or a code unit of 16 bits given by its number. -/
inductive Piece
  | char (c : Char)
  | unit (n : Nat)
  deriving DecidableEq, Repr

/-- The value of a hexadecimal digit. -/
def hexValue? (c : Char) : Option Nat :=
  if c.isDigit then some (c.toNat - '0'.toNat)
  else if 'a' ≤ c ∧ c ≤ 'f' then some (c.toNat - 'a'.toNat + 10)
  else if 'A' ≤ c ∧ c ≤ 'F' then some (c.toNat - 'A'.toNat + 10)
  else none

/-- The number that four hexadecimal digits write. -/
def unit? (a b c d : Char) : Option Nat := do
  return (((← hexValue? a) * 16 + (← hexValue? b)) * 16 + (← hexValue? c)) * 16 + (← hexValue? d)

/-- The character that the letter of an escape stands for. -/
def escaped? : Char → Option Char
  | '"' => some '"'
  | '\\' => some '\\'
  | '/' => some '/'
  | 'b' => some '\x08'
  | 'f' => some '\x0c'
  | 'n' => some '\n'
  | 'r' => some '\r'
  | 't' => some '\t'
  | _ => none

/-- One more piece in front of those of a string. -/
def addPiece (p : Piece) (read : Option (List Piece × List Char)) :
    Option (List Piece × List Char) :=
  read.map fun (ps, s) => (p :: ps, s)

/-- The pieces of a string up to its closing quote, and the text after it. -/
def stringPieces : List Char → Option (List Piece × List Char)
  | [] => none
  | '"' :: s => some ([], s)
  | '\\' :: 'u' :: a :: b :: c :: d :: s =>
    (unit? a b c d).bind fun n => addPiece (.unit n) (stringPieces s)
  | '\\' :: e :: s => (escaped? e).bind fun c => addPiece (.char c) (stringPieces s)
  | c :: s =>
    if c.toNat < 0x20 ∨ c = '\\' then none else addPiece (.char c) (stringPieces s)

def isHighSurrogate (n : Nat) : Bool := 0xD800 ≤ n && n < 0xDC00
def isLowSurrogate (n : Nat) : Bool := 0xDC00 ≤ n && n < 0xE000

/-- The characters that pieces stand for, unless one is half a surrogate pair on its own. -/
def joinPieces : List Piece → Option (List Char)
  | [] => some []
  | .char c :: ps => (joinPieces ps).map (c :: ·)
  | .unit high :: .unit low :: ps =>
    if isHighSurrogate high then
      if isLowSurrogate low then
        (joinPieces ps).map (Char.ofNat (0x10000 + (high - 0xD800) * 0x400 + (low - 0xDC00)) :: ·)
      else none
    else if isLowSurrogate high then none
    else (joinPieces (.unit low :: ps)).map (Char.ofNat high :: ·)
  | .unit n :: ps =>
    if isHighSurrogate n || isLowSurrogate n then none
    else (joinPieces ps).map (Char.ofNat n :: ·)

/-! ### Numbers -/

/-- The digits at the front of a text, and the text after them. -/
def digits (s : List Char) : List Char × List Char :=
  (s.takeWhile Char.isDigit, s.dropWhile Char.isDigit)

/-- The text after a fraction, if one begins here it must have a digit. -/
def skipFraction : List Char → Option (List Char)
  | '.' :: s => if (digits s).1.isEmpty then none else some (digits s).2
  | s => some s

/-- The text without a sign. -/
def skipSign : List Char → List Char
  | '+' :: s => s
  | '-' :: s => s
  | s => s

/-- The text after an exponent, if one begins here it must have a digit. -/
def skipExponent : List Char → Option (List Char)
  | [] => some []
  | c :: s =>
    if c = 'e' ∨ c = 'E' then
      if (digits (skipSign s)).1.isEmpty then none else some (digits (skipSign s)).2
    else some (c :: s)

/-- A number without its sign. Zero is the only one that begins with the digit zero. -/
def number (negative : Bool) (s : List Char) : Option (Token × List Char) := do
  let (whole, rest) := digits s
  if whole.isEmpty ∨ (1 < whole.length ∧ whole.head? = some '0') then none
  let afterFraction ← skipFraction rest
  let afterNumber ← skipExponent afterFraction
  let n := Nat.ofDigitChars 10 whole 0
  if afterNumber.length < rest.length ∨ (negative ∧ n = 0) then return (.real, afterNumber)
  return (.int (if negative then -n else n), rest)

/-! ### Lexemes -/

/-- The lexeme at the front of a text that begins with the given character. -/
def lexeme (c : Char) (s : List Char) : Option (Token × List Char) :=
  match c, s with
  | '\x7b', s => some (.openObject, s)
  | '\x7d', s => some (.closeObject, s)
  | '[', s => some (.openArray, s)
  | ']', s => some (.closeArray, s)
  | ':', s => some (.colon, s)
  | ',', s => some (.comma, s)
  | 'n', 'u' :: 'l' :: 'l' :: s => some (.null, s)
  | 't', 'r' :: 'u' :: 'e' :: s => some (.bool true, s)
  | 'f', 'a' :: 'l' :: 's' :: 'e' :: s => some (.bool false, s)
  | '"', s => (stringPieces s).map fun (ps, s) => (.str ((joinPieces ps).map String.ofList), s)
  | '-', s => number true s
  | c, s => if c.isDigit then number false (c :: s) else none

theorem addPiece_eq_some {p : Piece} {read : Option (List Piece × List Char)}
    {ps : List Piece} {r : List Char} (h : addPiece p read = some (ps, r)) :
    ∃ qs, ps = p :: qs ∧ read = some (qs, r) := by
  obtain ⟨⟨qs, r'⟩, h', e⟩ := Option.map_eq_some_iff.1 h
  cases e
  exact ⟨qs, rfl, h'⟩

theorem stringPieces_length {s r : List Char} {ps : List Piece}
    (h : stringPieces s = some (ps, r)) : r.length ≤ s.length := by
  fun_induction stringPieces s generalizing ps r with
  | case1 => exact nomatch h
  | case2 s =>
    cases h
    simp
  | case3 a b c d s ih =>
    obtain ⟨n, -, h⟩ := Option.bind_eq_some_iff.1 h
    obtain ⟨qs, -, h⟩ := addPiece_eq_some h
    have := ih h
    simp only [List.length_cons]
    omega
  | case4 e s _ ih =>
    obtain ⟨c, -, h⟩ := Option.bind_eq_some_iff.1 h
    obtain ⟨qs, -, h⟩ := addPiece_eq_some h
    have := ih h
    simp only [List.length_cons]
    omega
  | case5 => exact nomatch h
  | case6 c s _ _ _ _ ih =>
    obtain ⟨qs, -, h⟩ := addPiece_eq_some h
    have := ih h
    simp only [List.length_cons]
    omega

theorem length_digits (s : List Char) : (digits s).2.length ≤ s.length :=
  (List.dropWhile_suffix _).length_le

theorem length_digits_lt {s : List Char} (h : ¬(digits s).1 = []) :
    (digits s).2.length < s.length := by
  have whole := congrArg List.length (s.takeWhile_append_dropWhile (p := Char.isDigit))
  have pos := List.length_pos_iff.2 h
  simp only [digits, List.length_append] at *
  omega

theorem length_skipFraction {s r : List Char} (h : skipFraction s = some r) :
    r.length ≤ s.length := by
  unfold skipFraction at h
  split at h
  · rename_i t
    split at h
    · exact nomatch h
    · have := length_digits t
      cases h
      simp only [List.length_cons]
      omega
  · cases h
    exact Nat.le_refl _

theorem length_skipSign (s : List Char) : (skipSign s).length ≤ s.length := by
  unfold skipSign
  split <;> simp

theorem length_skipExponent {s r : List Char} (h : skipExponent s = some r) :
    r.length ≤ s.length := by
  unfold skipExponent at h
  split at h
  · cases h
    exact Nat.le_refl _
  · rename_i c t
    split at h
    · split at h
      · exact nomatch h
      · have := length_digits (skipSign t)
        have := length_skipSign t
        cases h
        simp only [List.length_cons]
        omega
    · cases h
      exact Nat.le_refl _

theorem length_number {negative : Bool} {s r : List Char} {t : Token}
    (h : number negative s = some (t, r)) : r.length < s.length := by
  unfold number at h
  simp only [Option.bind_eq_bind, Option.pure_def] at h
  split at h
  · exact nomatch h
  · rename_i whole
    have shorter : (digits s).2.length < s.length := by
      apply length_digits_lt
      simp only [List.isEmpty_iff] at whole
      exact fun e => whole (.inl e)
    simp only [Option.bind_eq_some_iff] at h
    obtain ⟨f, hf, e, he, h⟩ := h
    have := length_skipFraction hf
    have := length_skipExponent he
    split at h <;> cases h <;> omega

theorem lexeme_length {c : Char} {s r : List Char} {t : Token}
    (h : lexeme c s = some (t, r)) : r.length ≤ s.length := by
  unfold lexeme at h
  split at h
  case h_10 =>
    obtain ⟨⟨ps, r'⟩, h', e⟩ := Option.map_eq_some_iff.1 h
    cases e
    exact stringPieces_length h'
  case h_11 => exact Nat.le_of_lt (length_number h)
  case h_12 =>
    split at h
    · exact Nat.le_of_lt_succ (length_number h)
    · exact nomatch h
  all_goals cases h; grind

/-- The lexemes of a text, up to the first place where none begins. -/
def scan : List Char → List Token
  | [] => []
  | c :: s =>
    if isBlank c then scan s
    else
      match _h : lexeme c s with
      | some (t, rest) => t :: scan rest
      | none => [.bad]
termination_by s => s.length
decreasing_by
  · simp
  · exact Nat.lt_succ_of_le (lexeme_length _h)

end Cadastre.Json
