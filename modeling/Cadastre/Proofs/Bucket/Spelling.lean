import Cadastre.Proofs.Bucket
import Cadastre.Proofs.Text.Blank
import Mathlib.Data.List.Forall2
/-!
# Cadastre.Proofs.Bucket.Spelling

**How buckets are spelled.** A grammar of the texts that people write for buckets, and what reading
makes of every text: the bucket that it spells, if it spells one and the weights have a sum of 32
bits; a complaint about the text, if it spells none; and a cut by overflow, if it spells one whose
weights have no such sum (`Bucket.parse_spelling`).

The grammar knows nothing of how texts are read. It puts a text together from pieces with commas
between them, where reading cuts the text at commas and each share at its last colon. The two meet
in `Bucket.piece_singleton_iff`, for one piece, and in `Bucket.spelling_iff`, for a whole text.
-/

namespace Cadastre

/-! ### Names of blocks -/

namespace Block

/-- Whether people may write a name for a known block: its full name or what follows the name space
in it, in capitals or small letters. -/
def Named (b : Block) (name : List Char) : Prop :=
  b.Known ∧ (name.map Char.toLower = b.name.toList ∨
    nameSpace.toList ++ name.map Char.toLower = b.name.toList)

theorem count_colon_palette : ∀ name ∈ palette, name.toList.count ':' = 1 := by decide +kernel

variable {b : Block} {name : List Char}

theorem name_of_ofName? {name : String} (h : ofName? name = some b) : b.name = fullName name := by
  obtain ⟨i, hi, rfl⟩ := Option.map_eq_some_iff.mp h
  obtain ⟨hlt, hname, -⟩ := List.idxOf?_eq_some_iff.mp hi
  have hid : i.toUInt16.toNat = i :=
    UInt16.toNat_ofNat_of_lt' (Nat.lt_trans hlt (by decide))
  rw [Block.name, hid, List.getD_eq_getElem?_getD, List.getElem?_eq_getElem hlt]
  exact hname

theorem keyword_ofList (name : List Char) :
    Text.keyword (String.ofList name) = String.ofList ((Text.trimList name).map Char.toLower) := by
  rw [Text.keyword, Text.trim, Text.lower, String.toList_ofList, String.toList_ofList]

/-- What is found by a name is the block that the name is one of, blanks around it aside. -/
theorem ofName?_eq_some_iff :
    ofName? (String.ofList name) = some b ↔ b.Named (Text.trimList name) := by
  have hfull : fullName (String.ofList name) =
      if ':' ∈ (Text.trimList name).map Char.toLower then
        String.ofList ((Text.trimList name).map Char.toLower)
      else nameSpace ++ String.ofList ((Text.trimList name).map Char.toLower) := by
    simp only [fullName, keyword_ofList, String.toList_ofList]
  constructor
  · intro h
    refine ⟨known_of_ofName? h, ?_⟩
    rw [name_of_ofName? h, hfull]
    split
    · left
      rw [String.toList_ofList]
    · right
      rw [String.toList_append, String.toList_ofList]
  · rintro ⟨hknown, hname | hname⟩
    · refine hknown.ofName?_of_fullName ?_
      obtain ⟨hcolon, -, -⟩ := palette_spelling _ hknown.name_mem
      rw [hfull, hname, if_pos hcolon, String.ofList_toList]
    · refine hknown.ofName?_of_fullName ?_
      have hcount := count_colon_palette _ hknown.name_mem
      have hspace : nameSpace.toList.count ':' = 1 := rfl
      rw [← hname, List.count_append, hspace, Nat.add_eq_left] at hcount
      rw [hfull, if_neg (List.count_eq_zero.mp hcount), ← String.toList_inj, String.toList_append,
        String.toList_ofList, hname]

namespace Named

/-- In small letters, a name is the end of the block's full name. -/
theorem exists_front (h : b.Named name) :
    ∃ front, b.name.toList = front ++ name.map Char.toLower := by
  obtain ⟨-, hname | hname⟩ := h
  · exact ⟨[], hname.symm⟩
  · exact ⟨nameSpace.toList, hname.symm⟩

theorem plain_toLower (h : b.Named name) {c : Char} (hc : c ∈ name) :
    c.toLower ≠ ',' ∧ Text.isBlank c.toLower = false := by
  obtain ⟨front, hfront⟩ := h.exists_front
  refine h.1.plain_name.2 c.toLower ?_
  rw [hfront]
  exact List.mem_append_right _ (List.mem_map_of_mem hc)

theorem solid (h : b.Named name) : Text.Solid name := by
  refine Text.solid_of_map_toLower ?_
  intro c hc
  obtain ⟨d, hd, rfl⟩ := List.mem_map.mp hc
  exact (h.plain_toLower hd).2

theorem comma_notMem (h : b.Named name) : ',' ∉ name := fun hc => (h.plain_toLower hc).1 rfl

/-- A name gives no weight, since no full name ends in one. -/
theorem weighted?_eq_none (h : b.Named name) : Bucket.weighted? name = none := by
  obtain ⟨front, hfront⟩ := h.exists_front
  have hfull := h.1.weighted?_name
  unfold Bucket.weighted? at hfull ⊢
  cases hcut : Text.cutLast? ':' name with
  | none => rfl
  | some cut =>
      obtain ⟨before, digits⟩ := cut
      obtain ⟨rfl, hcolon⟩ := Text.cutLast?_eq_some hcut
      refine if_neg fun hdigits => ?_
      have hcut' : Text.cutLast? ':' b.name.toList =
          some (front ++ before.map Char.toLower, digits) := by
        rw [hfront, List.map_append, List.map_cons, Text.map_toLower_digits hdigits,
          ← List.append_assoc]
        exact Text.cutLast?_append _ hcolon
      rw [hcut'] at hfull
      simp only [hdigits] at hfull
      cases hfull

theorem ne_nil (h : b.Named name) : name ≠ [] := by
  rintro rfl
  obtain ⟨hknown, hname | hname⟩ := h
  · exact hknown.plain_name.1 hname.symm
  · have hfull := hknown.weighted?_name
    rw [← hname] at hfull
    cases hfull

end Named

end Block

namespace Bucket

/-! ### The grammar -/

/-- How a share may be written: a name alone, for the weight 1, or a name and behind a colon the
weight in digits, with any blanks before the colon. -/
inductive Written : List Char → Share → Prop
  | bare {name : List Char} {block : Block} (hname : block.Named name) : Written name ⟨block, 1⟩
  | weighted {name blanks digits : List Char} {block : Block} (hname : block.Named name)
      (hblanks : Text.Blanks blanks) (hsome : digits ≠ [])
      (hdigits : digits.all Char.isDigit = true) (hpos : 1 ≤ Nat.ofDigitChars 10 digits 0)
      (hle : Nat.ofDigitChars 10 digits 0 ≤ maxWeight) :
      Written (name ++ blanks ++ ':' :: digits) ⟨block, Nat.ofDigitChars 10 digits 0⟩

/-- What may stand between commas: blanks, for no share, or a share with any blanks around it. -/
inductive Piece : List Char → List Share → Prop
  | empty {blanks : List Char} (h : Text.Blanks blanks) : Piece blanks []
  | share {before part after : List Char} {s : Share} (hbefore : Text.Blanks before)
      (hafter : Text.Blanks after) (h : Written part s) : Piece (before ++ part ++ after) [s]

/-- The texts that spell a list of shares: pieces with commas between them. -/
inductive Spelling : List Char → List Share → Prop
  | last {piece : List Char} {shares : List Share} (h : Piece piece shares) : Spelling piece shares
  | more {piece text : List Char} {shares rest : List Share} (h : Piece piece shares)
      (hrest : Spelling text rest) : Spelling (piece ++ ',' :: text) (shares ++ rest)

variable {part piece text : List Char} {s : Share} {shares : List Share}

/-! ### One share -/

theorem weighted?_append {name digits : List Char} (hdigits : digits.all Char.isDigit = true) :
    weighted? (name ++ ':' :: digits) = some (name, digits) := by
  have hcolon : ':' ∉ digits := fun hmem => absurd (List.all_eq_true.mp hdigits _ hmem) (by decide)
  unfold weighted?
  rw [Text.cutLast?_append name hcolon]
  exact if_pos hdigits

theorem eq_of_weighted? {name digits : List Char} (h : weighted? part = some (name, digits)) :
    part = name ++ ':' :: digits ∧ digits.all Char.isDigit = true := by
  unfold weighted? at h
  split at h
  · rename_i hcut
    split at h
    · rename_i hdigits
      cases h
      exact ⟨(Text.cutLast?_eq_some hcut).1, hdigits⟩
    · cases h
  · cases h

theorem weight?_eq_some_iff {digits : List Char} {weight : Nat}
    (hdigits : digits.all Char.isDigit = true) :
    weight? digits = some weight ↔
      digits ≠ [] ∧ Nat.ofDigitChars 10 digits 0 = weight ∧ weight ≤ maxWeight := by
  unfold weight? Text.Numeral.nat?
  rw [Option.filter_eq_some_iff]
  simp only [hdigits, and_true, decide_eq_true_eq]
  by_cases hsome : digits = []
  · simp [hsome]
  · simp [hsome]

/-- A share that gives no weight is read by its name. -/
theorem parseShare_bare (h : weighted? part = none) :
    parseShare part = .ok s ↔ s.block.Named (Text.trimList part) ∧ s.weight = 1 := by
  rw [← Block.ofName?_eq_some_iff]
  unfold parseShare
  simp only [h, pure_bind, if_neg Nat.one_ne_zero]
  cases hname : Block.ofName? (String.ofList part) with
  | none => exact ⟨nofun, fun h => nomatch h.1⟩
  | some block =>
      constructor
      · intro h
        cases h
        exact ⟨rfl, rfl⟩
      · rintro ⟨hblock, hweight⟩
        rw [Option.some.inj hblock, ← hweight]
        rfl

/-- A share that gives a weight is read by what comes before the colon and behind it. -/
theorem parseShare_weighted {name digits : List Char} (h : weighted? part = some (name, digits)) :
    parseShare part = .ok s ↔
      s.block.Named (Text.trimList name) ∧ weight? digits = some s.weight ∧ 1 ≤ s.weight := by
  rw [← Block.ofName?_eq_some_iff]
  unfold parseShare
  cases hweight : weight? digits with
  | none =>
      simp only [h, hweight]
      exact ⟨nofun, fun h => nomatch h.2.1⟩
  | some weight =>
      simp only [h, hweight, pure_bind]
      by_cases hzero : weight = 0
      · rw [if_pos hzero]
        refine ⟨nofun, ?_⟩
        rintro ⟨-, hsame, hpos⟩
        have hsame := Option.some.inj hsame
        omega
      · rw [if_neg hzero]
        cases hname : Block.ofName? (String.ofList name) with
        | none => exact ⟨nofun, fun h => nomatch h.1⟩
        | some block =>
            constructor
            · intro h
              cases h
              exact ⟨rfl, rfl, Nat.one_le_iff_ne_zero.mpr hzero⟩
            · rintro ⟨hblock, hsame, -⟩
              rw [Option.some.inj hblock, Option.some.inj hsame]
              rfl

/-- What is written for a share has neither a comma in it nor a blank at an end. -/
theorem Written.plain (h : Written part s) :
    part ≠ [] ∧ ',' ∉ part ∧ Text.trimList part = part := by
  cases h with
  | bare hname => exact ⟨hname.ne_nil, hname.comma_notMem, Text.trimList_of_plain hname.solid⟩
  | @weighted name blanks digits block hname hblanks hsome hdigits =>
      have hdigit {c : Char} (hc : c ∈ digits) : c.isDigit = true :=
        List.all_eq_true.mp hdigits c hc
      have hcomma : ',' ∉ digits := fun hmem => absurd (hdigit hmem) (by decide)
      refine ⟨by simp, ?_, ?_⟩
      · have hblank : ',' ∉ blanks := hblanks.notMem (by decide)
        simp [hname.comma_notMem, hblank, hcomma]
      · have hsolid : Text.Solid digits := fun c hc => Text.isBlank_of_isDigit (hdigit hc)
        have htrim := Text.trimList_between hname.solid hsolid hname.ne_nil hsome (blanks ++ [':'])
        simpa using htrim

/-- A share is read from what may be written for it. -/
theorem parseShare_of_written (h : Written part s) : parseShare part = .ok s := by
  cases h with
  | bare hname =>
      rw [parseShare_bare hname.weighted?_eq_none, Text.trimList_of_plain hname.solid]
      exact ⟨hname, rfl⟩
  | @weighted name blanks digits block hname hblanks hsome hdigits hpos hle =>
      have htrim : Text.trimList (name ++ blanks) = name := by
        rw [Text.trimList_append_blanks hblanks, Text.trimList_of_plain hname.solid]
      rw [parseShare_weighted (weighted?_append hdigits), htrim, weight?_eq_some_iff hdigits]
      exact ⟨hname, ⟨hsome, rfl, hle⟩, hpos⟩

/-! ### One piece -/

theorem piece_nil_iff : Piece piece [] ↔ Text.trimList piece = [] := by
  constructor
  · rintro ⟨h⟩
    exact Text.trimList_of_blanks h
  · intro h
    exact .empty (Text.blanks_of_trimList h)

/-- A piece is a share's exactly if the share is read from the piece without the blanks around it.
Blanks before the colon go to the share, those at the ends to the piece. -/
theorem piece_singleton_iff :
    Piece piece [s] ↔ Text.trimList piece ≠ [] ∧ parseShare (Text.trimList piece) = .ok s := by
  constructor
  · rintro (_ | ⟨hbefore, hafter, h⟩)
    obtain ⟨hsome, -, htrim⟩ := h.plain
    rw [Text.trimList_padded hbefore hafter, htrim]
    exact ⟨hsome, parseShare_of_written h⟩
  · rintro ⟨-, h⟩
    obtain ⟨before, after, hbefore, hafter, hpiece⟩ := Text.exists_padding piece
    cases hweighted : weighted? (Text.trimList piece) with
    | none =>
        obtain ⟨hname, hweight⟩ := (parseShare_bare hweighted).mp h
        rw [Text.trimList_trimList] at hname
        obtain ⟨block, weight⟩ := s
        cases hweight
        rw [hpiece]
        exact .share hbefore hafter (.bare hname)
    | some cut =>
        obtain ⟨front, digits⟩ := cut
        obtain ⟨hname, hweight, hpos⟩ := (parseShare_weighted hweighted).mp h
        obtain ⟨hpart, hdigits⟩ := eq_of_weighted? hweighted
        obtain ⟨hsome, hvalue, hle⟩ := (weight?_eq_some_iff hdigits).mp hweight
        obtain ⟨lead, blanks, hlead, hblanks, hfront⟩ := Text.exists_padding front
        obtain ⟨block, weight⟩ := s
        cases hvalue
        have hwhole : piece = (before ++ lead) ++
            (Text.trimList front ++ blanks ++ ':' :: digits) ++ after := by
          conv_lhs => rw [hpiece, hpart, hfront]
          simp
        have hbefore' : Text.Blanks (before ++ lead) := by
          intro c hc
          exact (List.mem_append.mp hc).elim (hbefore c) (hlead c)
        rw [hwhole]
        exact .share hbefore' hafter (.weighted hname hblanks hsome hdigits hpos hle)

theorem Piece.comma_notMem (h : Piece piece shares) : ',' ∉ piece := by
  have hcomma : Text.isBlank ',' = false := by decide
  cases h with
  | empty h => exact h.notMem hcomma
  | share hbefore hafter h =>
      simp [hbefore.notMem hcomma, hafter.notMem hcomma, h.plain.2.1]

/-! ### Whole texts -/

/-- The pieces of a text without the blanks around them, the empty ones left out. -/
def trimmed (pieces : List (List Char)) : List (List Char) :=
  (pieces.map Text.trimList).filter fun part => !part.isEmpty

theorem parts_eq (text : String) : parts text = trimmed (text.toList.splitOn ',') := rfl

variable {pieces : List (List Char)}

theorem trimmed_cons_of_nil (h : Text.trimList piece = []) :
    trimmed (piece :: pieces) = trimmed pieces := by
  simp [trimmed, h]

theorem trimmed_cons_of_ne_nil (h : Text.trimList piece ≠ []) :
    trimmed (piece :: pieces) = Text.trimList piece :: trimmed pieces := by
  simp [trimmed, h]

/-- Parts that are read as shares, one by one. -/
abbrev ReadAs : List (List Char) → List Share → Prop :=
  List.Forall₂ fun part s => parseShare part = .ok s

theorem readAs_cons (h : Piece piece shares) {rest : List Share}
    (hrest : ReadAs (trimmed pieces) rest) :
    ReadAs (trimmed (piece :: pieces)) (shares ++ rest) := by
  match shares, h with
  | [], h =>
      rw [trimmed_cons_of_nil (piece_nil_iff.mp h)]
      exact hrest
  | [s], h =>
      obtain ⟨hsome, hread⟩ := piece_singleton_iff.mp h
      rw [trimmed_cons_of_ne_nil hsome]
      exact .cons hread hrest

theorem readAs_of_spelling (h : Spelling text shares) :
    ReadAs (trimmed (text.splitOn ',')) shares := by
  induction h with
  | last h =>
      have hnone : ReadAs (trimmed []) [] := .nil
      rw [List.splitOn_eq_singleton h.comma_notMem]
      simpa using readAs_cons h hnone
  | more h _ ih =>
      rw [List.splitOn_append_cons_self_of_not_mem h.comma_notMem]
      exact readAs_cons h ih

theorem exists_piece (h : ReadAs (trimmed (piece :: pieces)) shares) :
    ∃ front rest, shares = front ++ rest ∧ Piece piece front ∧ ReadAs (trimmed pieces) rest := by
  by_cases hpiece : Text.trimList piece = []
  · rw [trimmed_cons_of_nil hpiece] at h
    exact ⟨[], shares, rfl, piece_nil_iff.mpr hpiece, h⟩
  · rw [trimmed_cons_of_ne_nil hpiece] at h
    obtain _ | ⟨hread, hrest⟩ := h
    exact ⟨[_], _, rfl, piece_singleton_iff.mpr ⟨hpiece, hread⟩, hrest⟩

theorem spelling_of_readAs (hsome : pieces ≠ []) (h : ReadAs (trimmed pieces) shares) :
    Spelling ([','].intercalate pieces) shares := by
  induction pieces generalizing shares with
  | nil => exact absurd rfl hsome
  | cons piece pieces ih =>
      obtain ⟨front, rest, rfl, hpiece, hrest⟩ := exists_piece h
      cases pieces with
      | nil =>
          cases hrest
          rw [List.intercalate_singleton, List.append_nil]
          exact .last hpiece
      | cons next pieces =>
          rw [List.intercalate_cons_cons, List.append_assoc]
          exact .more hpiece (ih (List.cons_ne_nil next pieces) hrest)

/-- What a text spells is what its parts are read as. -/
theorem spelling_iff : Spelling text shares ↔ ReadAs (trimmed (text.splitOn ',')) shares := by
  constructor
  · exact readAs_of_spelling
  · intro h
    have hjoined := spelling_of_readAs (List.splitOn_ne_nil ',' text) h
    rwa [List.intercalate_splitOn] at hjoined

/-! ### Reading -/

theorem mapM_eq_ok_iff {α β ε : Type} {f : β → Except ε α} {bs : List β} {as : List α} :
    bs.mapM f = .ok as ↔ List.Forall₂ (fun b a => f b = .ok a) bs as := by
  induction bs generalizing as with
  | nil => simp [pure, Except.pure, eq_comm]
  | cons b bs ih =>
      rw [List.mapM_cons, List.forall₂_cons_left_iff]
      constructor
      · intro h
        obtain ⟨a, hb, h⟩ := exists_of_bind_eq_ok h
        obtain ⟨rest, hbs, h⟩ := exists_of_bind_eq_ok h
        cases h
        exact ⟨a, rest, hb, ih.mp hbs, rfl⟩
      · rintro ⟨a, rest, hb, hrest, rfl⟩
        rw [hb, ih.mpr hrest]
        rfl

/-- A text spells the shares that it is read as. -/
theorem parseShares_eq_ok_iff_spelling {text : String} {b : Bucket} :
    parseShares text = .ok b ↔ Spelling text.toList b.shares := by
  rw [parseShares_eq_ok_iff, mapM_eq_ok_iff, spelling_iff, parts_eq]

/-- Buckets hold the lists of shares that are not empty. -/
theorem exists_bucket_iff {p : List Share → Prop} :
    (∃ b : Bucket, p b.shares) ↔ ∃ shares, shares ≠ [] ∧ p shares := by
  constructor
  · rintro ⟨b, h⟩
    exact ⟨b.shares, List.cons_ne_nil _ _, h⟩
  · rintro ⟨shares, hsome, h⟩
    obtain ⟨first, rest, rfl⟩ := List.exists_cons_of_ne_nil hsome
    exact ⟨⟨first, rest⟩, h⟩

/-- **What a text is read as.** Texts are spelled from pieces between commas, each of them blank or
a share: a known block's name and perhaps a weight from 1 to 4294967295. A text is read as a bucket
exactly if it spells the bucket's shares, at least one, and their weights have a sum of 32 bits,
which is then the sum of the bucket. Reading a text is cut off, by an overflow, exactly if the text
spells shares but their weights have no such sum. And it is refused exactly if it spells none. -/
theorem parse_spelling (text : String) :
    (∀ b, parse text = .ok b ↔ Spelling text.toList b.shares ∧
      b.total = (b.shares.map Share.weight).sum ∧ b.total ≤ maxWeight) ∧
    (parse text = .error (.abort (.overflow .add)) ↔ ∃ shares, shares ≠ [] ∧
      Spelling text.toList shares ∧ maxWeight < (shares.map Share.weight).sum) ∧
    ((∃ cause, parse text = .error (.config (.bucket cause))) ↔
      ¬ ∃ shares, shares ≠ [] ∧ Spelling text.toList shares) := by
  refine ⟨fun b => ?_, ?_, ?_⟩
  · rw [parse_eq_ok_iff, read_eq_ok_iff, parseShares_eq_ok_iff_spelling]
    exact and_congr_right fun _ => (and_iff_right b.total_eq_sum).symm
  · rw [parse_eq_abort_iff]
    simp only [true_and, parseShares_eq_ok_iff_spelling, total_eq_sum]
    exact exists_bucket_iff
      (p := fun shares => Spelling text.toList shares ∧ maxWeight < (shares.map Share.weight).sum)
  · rw [exists_parse_eq_config_iff]
    simp only [parseShares_eq_ok_iff_spelling]
    exact not_congr exists_bucket_iff

/-- A text that spells two shares and is not read as a bucket: the sum of their weights is the least
number beyond 32 bits. -/
theorem spelled_and_cut_off :
    Spelling "stone:4294967295,dirt".toList [⟨.stone, 4294967295⟩, ⟨.dirt, 1⟩] ∧
      parse "stone:4294967295,dirt" = .error (.abort (.overflow .add)) := by
  have hparse : parseShares "stone:4294967295,dirt" =
      .ok ⟨⟨.stone, 4294967295⟩, [⟨.dirt, 1⟩]⟩ := rfl
  exact ⟨parseShares_eq_ok_iff_spelling.mp hparse, rfl⟩

end Bucket

end Cadastre
