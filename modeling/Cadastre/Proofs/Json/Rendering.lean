import Cadastre.Json.Decode
import Cadastre.Json.Value
import Mathlib.Tactic.SplitIfs
/-!
# Cadastre.Proofs.Json.Rendering

**A written document is read as itself.** The text of a document is scanned back lexeme by lexeme,
and the reader builds from the lexemes what was written: `Json.reading`, with every container closed
and nothing torn. So a decoder gets to see of the text what the document holds
(`Json.decode_text`).

Design points:

* Every statement speaks of a text with something behind it, so that parts of a document can be put
  together. Only a number depends on what follows: it must not go on (`EndsNumber`).
* Characters are escaped one at a time. An escape by code unit stands for a control character, so it
  is never half of a surrogate pair.
-/

namespace Cadastre.Json

/-! ### Strings -/

/-- The piece that the written form of a character is read as. -/
def pieceOf (c : Char) : Piece :=
  if c.toNat < 0x20 ∧ c ∉ ['\x08', '\x0c', '\n', '\r', '\t'] then .unit c.toNat else .char c

/-- The digits of a small code unit are read as its number. -/
theorem unit?_hexDigit {n : Nat} (h : n < 0x20) :
    unit? '0' '0' (hexDigit (n / 16)) (hexDigit (n % 16)) = some n := by
  have hall : ∀ n < 0x20, unit? '0' '0' (hexDigit (n / 16)) (hexDigit (n % 16)) = some n := by
    decide
  exact hall n h

theorem stringPieces_escape (c : Char) (s : List Char) :
    stringPieces (escape c ++ s) = addPiece (pieceOf c) (stringPieces s) := by
  unfold escape
  split_ifs with hquote hslash hb hf hn hr ht hcontrol
  · subst hquote; rfl
  · subst hslash; rfl
  · subst hb; rfl
  · subst hf; rfl
  · subst hn; rfl
  · subst hr; rfl
  · subst ht; rfl
  · have hpiece : pieceOf c = .unit c.toNat := if_pos ⟨hcontrol, by simp [hb, hf, hn, hr, ht]⟩
    rw [hpiece]
    simp only [List.cons_append, List.nil_append]
    rw [stringPieces, unit?_hexDigit hcontrol, Option.bind_some]
  · have hpiece : pieceOf c = .char c := if_neg fun h => hcontrol h.1
    rw [hpiece, List.singleton_append, stringPieces]
    · rw [if_neg (not_or.mpr ⟨hcontrol, hslash⟩)]
    · exact hquote
    · exact fun _ _ _ _ _ h => absurd h hslash
    · exact fun _ _ h => absurd h hslash

/-- A code unit of a control character stands for that character, whatever comes after it. -/
theorem joinPieces_unit {n : Nat} (h : n < 0x20) (ps : List Piece) :
    joinPieces (.unit n :: ps) = (joinPieces ps).map (Char.ofNat n :: ·) := by
  have hhigh : isHighSurrogate n = false := by
    simp only [isHighSurrogate, Bool.and_eq_false_iff, decide_eq_false_iff_not]
    omega
  have hlow : isLowSurrogate n = false := by
    simp only [isLowSurrogate, Bool.and_eq_false_iff, decide_eq_false_iff_not]
    omega
  match ps with
  | [] => simp [joinPieces, hhigh, hlow]
  | .char c :: ps => simp [joinPieces, hhigh, hlow]
  | .unit low :: ps => simp [joinPieces, hhigh, hlow]

theorem joinPieces_pieceOf (cs : List Char) : joinPieces (cs.map pieceOf) = some cs := by
  induction cs with
  | nil => rfl
  | cons c cs ih =>
      rw [List.map_cons, pieceOf]
      split
      case isTrue h => rw [joinPieces_unit h.1, ih, Option.map_some, Char.ofNat_toNat]
      case isFalse => rw [joinPieces, ih, Option.map_some]

/-- What is written between quotes is read up to the closing quote. -/
theorem stringPieces_quote (cs rest : List Char) :
    stringPieces (cs.flatMap escape ++ '"' :: rest) = some (cs.map pieceOf, rest) := by
  induction cs with
  | nil => rfl
  | cons c cs ih =>
      rw [List.flatMap_cons, List.append_assoc, stringPieces_escape, ih, List.map_cons, addPiece,
        Option.map_some]

/-! ### Numbers -/

/-- Whether a number that stands before a text has come to its end there. -/
def EndsNumber : List Char → Prop
  | [] => True
  | c :: _ => c.isDigit = false ∧ c ∉ ['.', 'e', 'E']

theorem digits_append {ds rest : List Char} (hds : ∀ c ∈ ds, c.isDigit = true)
    (hrest : EndsNumber rest) : digits (ds ++ rest) = (ds, rest) := by
  unfold digits
  rw [List.takeWhile_append_of_pos hds, List.dropWhile_append_of_pos hds]
  cases rest with
  | nil => simp
  | cons c rest =>
      rw [List.takeWhile_cons_of_neg (by simp [hrest.1]),
        List.dropWhile_cons_of_neg (by simp [hrest.1]), List.append_nil]

theorem skipFraction_of_endsNumber {rest : List Char} (h : EndsNumber rest) :
    skipFraction rest = some rest := by
  unfold skipFraction
  split
  · exact absurd List.mem_cons_self h.2
  · rfl

theorem skipExponent_of_endsNumber {rest : List Char} (h : EndsNumber rest) :
    skipExponent rest = some rest := by
  unfold skipExponent
  split
  · rfl
  · rename_i c s
    exact if_neg (by rintro (rfl | rfl) <;> simp [EndsNumber] at h)

/-- A numeral other than that of zero begins with no zero. -/
theorem head?_ofNat {n : Nat} (h : n ≠ 0) : (Text.Numeral.ofNat n).head? ≠ some '0' := by
  induction n using Nat.strongRecOn with
  | ind n ih =>
      unfold Text.Numeral.ofNat at ih ⊢
      by_cases hsmall : n < 10
      · have hall : ∀ n < 10, n ≠ 0 → Nat.digitChar n ≠ '0' := by decide
        rw [Nat.toDigits_of_lt_base hsmall]
        simpa using hall n hsmall h
      · have hhead := ih (n / 10) (by omega) (by omega)
        rw [Nat.toDigits_of_base_le (by decide) (by omega), List.head?_append]
        cases hdigits : (Nat.toDigits 10 (n / 10)).head? with
        | none => exact absurd (List.head?_eq_none_iff.mp hdigits) (Text.Numeral.ofNat_ne_nil _)
        | some c => rwa [hdigits] at hhead

/-- A written numeral is read as its number. -/
theorem number_ofNat (negative : Bool) {n : Nat} (hn : negative = true → n ≠ 0)
    {rest : List Char} (hrest : EndsNumber rest) :
    number negative (Text.Numeral.ofNat n ++ rest) =
      some (.int (if negative then -n else n), rest) := by
  have hwhole : ¬((Text.Numeral.ofNat n).isEmpty = true ∨
      1 < (Text.Numeral.ofNat n).length ∧ (Text.Numeral.ofNat n).head? = some '0') := by
    rintro (hempty | ⟨hlong, hzero⟩)
    · exact Text.Numeral.ofNat_ne_nil n (List.isEmpty_iff.mp hempty)
    · refine head?_ofNat ?_ hzero
      rintro rfl
      exact absurd hlong (by decide)
  have hvalue : Nat.ofDigitChars 10 (Text.Numeral.ofNat n) 0 = n := Nat.ofDigitChars_ten_toDigits
  unfold number
  rw [digits_append (fun _ h => Text.Numeral.isDigit_of_mem_ofNat h) hrest]
  simp only [if_neg hwhole, skipFraction_of_endsNumber hrest, skipExponent_of_endsNumber hrest,
    hvalue, Option.bind_eq_bind, Option.bind_some, Option.pure_def]
  rw [if_neg]
  rintro (hlonger | ⟨hnegative, rfl⟩)
  · exact absurd hlonger (Nat.lt_irrefl _)
  · exact hn hnegative rfl

/-! ### Lexemes -/

theorem scan_cons {c : Char} {s rest : List Char} {t : Token} (hblank : isBlank c = false)
    (hlexeme : lexeme c s = some (t, rest)) : scan (c :: s) = t :: scan rest := by
  rw [scan, if_neg (by simp [hblank])]
  split
  · rename_i h
    cases hlexeme.symm.trans h
    rfl
  · rename_i h
    cases hlexeme.symm.trans h

theorem scan_quote (s : String) (rest : List Char) :
    scan (quote s ++ rest) = .str (some s) :: scan rest := by
  unfold quote
  rw [List.cons_append, List.append_assoc, List.singleton_append]
  refine scan_cons rfl ?_
  show (stringPieces _).map _ = _
  rw [stringPieces_quote]
  simp only [Option.map_some, joinPieces_pieceOf, String.ofList_toList]

/-- A digit begins a number. -/
theorem lexeme_of_isDigit {c : Char} (h : c.isDigit = true) (s : List Char) :
    lexeme c s = number false (c :: s) := by
  unfold lexeme
  split
  case h_12 => rw [if_pos h]
  all_goals exact absurd h (by decide)

theorem isBlank_of_isDigit {c : Char} (h : c.isDigit = true) : isBlank c = false := by
  unfold isBlank
  simp only [Bool.or_eq_false_iff, decide_eq_false_iff_not]
  refine ⟨⟨⟨?_, ?_⟩, ?_⟩, ?_⟩ <;> rintro rfl <;> exact absurd h (by decide)

theorem scan_ofInt (n : Int) {rest : List Char} (hrest : EndsNumber rest) :
    scan (Text.Numeral.ofInt n ++ rest) = .int n :: scan rest := by
  cases n with
  | ofNat n =>
      obtain ⟨c, ds, hds⟩ := List.exists_cons_of_ne_nil (Text.Numeral.ofNat_ne_nil n)
      have hdigit : c.isDigit = true :=
        Text.Numeral.isDigit_of_mem_ofNat (hds ▸ List.mem_cons_self)
      have hnumber := number_ofNat false (fun h => absurd h Bool.false_ne_true) (n := n) hrest
      rw [hds, List.cons_append] at hnumber
      show scan (Text.Numeral.ofNat n ++ rest) = _
      rw [hds, List.cons_append]
      exact scan_cons (isBlank_of_isDigit hdigit) ((lexeme_of_isDigit hdigit _).trans hnumber)
  | negSucc n =>
      exact scan_cons rfl (number_ofNat true (fun _ => Nat.succ_ne_zero n) hrest)

/-! ### Documents -/

mutual

/-- What a document is read as. -/
def reading : Json → Reading
  | null => .null
  | bool b => .bool b
  | int n => .int n
  | str s => .str (some s)
  | arr items => .arr (readings items) true
  | obj members => .obj (memberReadings members) true

def readings : List Json → List Reading
  | [] => []
  | item :: items => reading item :: readings items

def memberReadings : List (String × Json) → List (Option String × Reading)
  | [] => []
  | (key, value) :: members => (some key, reading value) :: memberReadings members

end

theorem endsNumber_renderItems (items : List Json) (rest : List Char) :
    EndsNumber (renderItems items ++ rest) := by
  cases items <;> exact ⟨by decide, by decide⟩

theorem endsNumber_renderMembers (members : List (String × Json)) (rest : List Char) :
    EndsNumber (renderMembers members ++ rest) := by
  match members with
  | [] => exact ⟨by decide, by decide⟩
  | (key, value) :: members => exact ⟨by decide, by decide⟩

/-- No written document begins with the end of an array. -/
theorem head?_scan_render (j : Json) {rest : List Char} (hrest : EndsNumber rest) :
    (scan (j.render ++ rest)).head? ≠ some .closeArray := by
  match j with
  | null => rw [render, List.cons_append, scan_cons rfl rfl]; simp
  | bool true => rw [render, List.cons_append, scan_cons rfl rfl]; simp
  | bool false => rw [render, List.cons_append, scan_cons rfl rfl]; simp
  | int n => rw [render, scan_ofInt n hrest]; simp
  | str s => rw [render, scan_quote]; simp
  | arr [] => rw [render, List.cons_append, scan_cons rfl rfl]; simp
  | arr (item :: items) => rw [render, List.cons_append, scan_cons rfl rfl]; simp
  | obj [] => rw [render, List.cons_append, scan_cons rfl rfl]; simp
  | obj ((key, value) :: members) => rw [render, List.cons_append, scan_cons rfl rfl]; simp

/-- Where an array may end but does not, its first item is a value like any other. -/
theorem readFrom_item {ts : List Token} (h : ts.head? ≠ some .closeArray) (items : List Reading)
    (outer : List Frame) :
    readFrom .item (.arr items :: outer) ts = readFrom .value (.arr items :: outer) ts := by
  cases ts with
  | nil => rfl
  | cons t ts =>
      have ht : t ≠ .closeArray := fun heq => h (by rw [heq, List.head?_cons])
      unfold readFrom advance
      simp only [if_neg ht]
      rfl

/-- The end of an array, and of an object, closes it. -/
theorem readFrom_closeArray (value : Reading) (before : List Reading) (within : List Frame)
    (ts : List Token) : readFrom (.after value) (.arr before :: within) (.closeArray :: ts) =
      readFrom (.after (.arr (before.reverse ++ [value]) true)) within ts := by
  rw [← List.reverse_cons]
  rfl

theorem readFrom_closeObject (key : Option String) (value : Reading)
    (before : List (Option String × Reading)) (within : List Frame) (ts : List Token) :
    readFrom (.after value) (.obj before key :: within) (.closeObject :: ts) =
      readFrom (.after (.obj (before.reverse ++ [(key, value)]) true)) within ts := by
  rw [← List.reverse_cons]
  rfl

/-- A key and a colon lead to the value of a member. -/
theorem readFrom_member (members : List (Option String × Reading)) (fresh : Bool) (key : String)
    (within : List Frame) (rest : List Char) :
    readFrom (.key members fresh) within (scan (quote key ++ ':' :: rest)) =
      readFrom .value (.obj members (some key) :: within) (scan rest) := by
  rw [scan_quote, scan_cons rfl rfl]
  rfl

mutual

/-- A reader that expects a value takes in a written document. -/
theorem readFrom_render (j : Json) (within : List Frame) {rest : List Char}
    (hrest : EndsNumber rest) : readFrom .value within (scan (j.render ++ rest)) =
      readFrom (.after j.reading) within (scan rest) := by
  match j with
  | null =>
      rw [render, List.cons_append, scan_cons rfl rfl]
      rfl
  | bool true =>
      rw [render, List.cons_append, scan_cons rfl rfl]
      rfl
  | bool false =>
      rw [render, List.cons_append, scan_cons rfl rfl]
      rfl
  | int n =>
      rw [render, scan_ofInt n hrest]
      rfl
  | str s =>
      rw [render, scan_quote]
      rfl
  | arr [] =>
      rw [render, List.cons_append, scan_cons rfl rfl, List.cons_append, scan_cons rfl rfl]
      rfl
  | arr (item :: items) =>
      rw [render, List.cons_append, scan_cons rfl rfl, List.append_assoc]
      have hitems := endsNumber_renderItems items rest
      exact (readFrom_item (head?_scan_render item hitems) [] within).trans
        ((readFrom_render item (.arr [] :: within) hitems).trans
          (readFrom_renderItems items item.reading [] within rest))
  | obj [] =>
      rw [render, List.cons_append, scan_cons rfl rfl, List.cons_append, scan_cons rfl rfl]
      rfl
  | obj ((key, value) :: members) =>
      rw [render, List.cons_append, scan_cons rfl rfl, List.append_assoc, List.cons_append,
        List.append_assoc]
      exact (readFrom_member [] true key within _).trans
        ((readFrom_render value (.obj [] (some key) :: within)
          (endsNumber_renderMembers members rest)).trans
          (readFrom_renderMembers members (some key) value.reading [] within rest))

/-- The rest of an array is taken in item by item. -/
theorem readFrom_renderItems (items : List Json) (value : Reading) (before : List Reading)
    (within : List Frame) (rest : List Char) :
    readFrom (.after value) (.arr before :: within) (scan (renderItems items ++ rest)) =
      readFrom (.after (.arr (before.reverse ++ value :: readings items) true)) within
        (scan rest) := by
  match items with
  | [] =>
      rw [renderItems, List.cons_append, scan_cons rfl rfl]
      exact readFrom_closeArray value before within _
  | item :: items =>
      rw [renderItems, List.cons_append, scan_cons rfl rfl, List.append_assoc]
      have hnext := readFrom_renderItems items item.reading (value :: before) within rest
      rw [List.reverse_cons, List.append_assoc, List.singleton_append] at hnext
      exact (readFrom_render item (.arr (value :: before) :: within)
        (endsNumber_renderItems items rest)).trans hnext

/-- The rest of an object is taken in member by member. -/
theorem readFrom_renderMembers (members : List (String × Json)) (key : Option String)
    (value : Reading) (before : List (Option String × Reading)) (within : List Frame)
    (rest : List Char) :
    readFrom (.after value) (.obj before key :: within) (scan (renderMembers members ++ rest)) =
      readFrom (.after (.obj (before.reverse ++ (key, value) :: memberReadings members) true))
        within (scan rest) := by
  match members with
  | [] =>
      rw [renderMembers, List.cons_append, scan_cons rfl rfl]
      exact readFrom_closeObject key value before within _
  | (key', value') :: members =>
      rw [renderMembers, List.cons_append, scan_cons rfl rfl, List.append_assoc, List.cons_append,
        List.append_assoc]
      have hnext := readFrom_renderMembers members (some key') value'.reading
        ((key, value) :: before) within rest
      rw [List.reverse_cons, List.append_assoc, List.singleton_append] at hnext
      exact (readFrom_member ((key, value) :: before) false key' within _).trans
        ((readFrom_render value' (.obj ((key, value) :: before) (some key') :: within)
          (endsNumber_renderMembers members rest)).trans hnext)

end

/-- **A written document is read as itself**, and as the whole of its text. -/
theorem read_text (j : Json) : read j.text = ⟨j.reading, true⟩ := by
  have hrender := readFrom_render j [] (show EndsNumber [] from trivial)
  rw [List.append_nil, scan] at hrender
  rw [read, text, String.toList_ofList, hrender]
  rfl

/-- A decoder gets to see of a written document what it holds. -/
theorem decode_text {α : Type} (decoder : Decoder α) (j : Json) :
    decode decoder j.text = decoder j.reading := by
  unfold decode
  rw [read_text]
  cases hdecoded : decoder j.reading with
  | ok a =>
      simp only [hdecoded]
      rfl
  | error e =>
      simp only [hdecoded]
      rfl

end Cadastre.Json
