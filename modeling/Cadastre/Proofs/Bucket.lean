import Cadastre.Bucket
import Mathlib.Algebra.GroupWithZero.Nat
/-!
# Cadastre.Proofs.Bucket

**Buckets and their texts.** A bucket that comes out of a text names known blocks, gives none of
them the weight zero, and its weights have a sum (`Bucket.readable_of_read`). That is all it takes
for the written form of a bucket to read back as that bucket (`Bucket.read_text`). So the written
form stands for everything that is read as the bucket (`Bucket.text_canonical`).
-/

namespace Cadastre

/-! ### Cutting -/

/-- The last separator is found behind whatever comes before it. -/
theorem Text.cutLast?_append {sep : Char} (a : List Char) {b : List Char} (h : sep ∉ b) :
    cutLast? sep (a ++ sep :: b) = some (a, b) := by
  induction a with
  | nil => rw [List.nil_append, cutLast?, cutLast?_eq_none.mpr h]; exact if_pos rfl
  | cons c a ih => rw [List.cons_append, cutLast?, ih]

/-- A digit is no blank. -/
theorem Text.isBlank_of_isDigit {c : Char} (h : c.isDigit = true) : isBlank c = false := by
  have hrange : 48 ≤ c.toNat ∧ c.toNat ≤ 57 := by
    simpa [Char.isDigit, UInt32.le_iff_toNat_le] using h
  simp only [isBlank, blankRanges, List.any_cons, List.any_nil, Bool.or_false, Bool.or_eq_false_iff,
    Bool.and_eq_false_iff, decide_eq_false_iff_not]
  omega

/-- A text without blanks is left as it is. -/
theorem Text.trimList_of_plain {s : List Char} (h : ∀ c ∈ s, isBlank c = false) :
    trimList s = s := by
  have hkeep (s : List Char) (h : ∀ c ∈ s, isBlank c = false) : s.dropWhile isBlank = s := by
    cases s with
    | nil => rfl
    | cons c s => exact List.dropWhile_cons_of_neg (by simp [h c List.mem_cons_self])
  rw [trimList, hkeep s h, hkeep s.reverse fun c hmem => h c (List.mem_reverse.mp hmem),
    List.reverse_reverse]

/-! ### Names of blocks -/

namespace Block

/-- Whether a name can stand in the text of a bucket: it has a name space, does not end in a weight,
and none of its characters separates shares or is dropped or changed when the name is looked up. -/
def spelled (name : List Char) : Bool :=
  name.elem ':' && (Bucket.weighted? name).isNone &&
    name.all fun c => c != ',' && !Text.isBlank c && c.toLower == c

theorem palette_spelling : ∀ name ∈ palette, ':' ∈ name.toList ∧
    Bucket.weighted? name.toList = none ∧
    ∀ c ∈ name.toList, c ≠ ',' ∧ Text.isBlank c = false ∧ c.toLower = c := by
  have hall : palette.all (fun name => spelled name.toList) = true := by decide +kernel
  intro name hname
  have hspelled := List.all_eq_true.mp hall name hname
  simpa [spelled, and_assoc] using hspelled

theorem nodup_palette : palette.Nodup := by decide +kernel

/-- Whether the palette names a block. -/
def Known (b : Block) : Prop := b.id.toNat < palette.length

namespace Known

variable {b : Block}

theorem name_eq (h : b.Known) : b.name = palette.get ⟨b.id.toNat, h⟩ := by
  rw [name, List.getD_eq_getElem?_getD, List.getElem?_eq_getElem h]
  rfl

theorem name_mem (h : b.Known) : b.name ∈ palette := h.name_eq ▸ List.get_mem _ _

/-- A name can stand in the text of a bucket: nothing in it separates shares or is dropped. -/
theorem plain_name (h : b.Known) :
    b.name.toList ≠ [] ∧ ∀ c ∈ b.name.toList, c ≠ ',' ∧ Text.isBlank c = false := by
  obtain ⟨hcolon, -, hplain⟩ := palette_spelling _ h.name_mem
  exact ⟨List.ne_nil_of_mem hcolon, fun c hc => ⟨(hplain c hc).1, (hplain c hc).2.1⟩⟩

/-- A name alone gives no weight. -/
theorem weighted?_name (h : b.Known) : Bucket.weighted? b.name.toList = none :=
  (palette_spelling _ h.name_mem).2.1

/-- A known block is found by any name that stands for its full name. -/
theorem ofName?_of_fullName (h : b.Known) {name : String} (hname : fullName name = b.name) :
    ofName? name = some b := by
  have hplace : palette.idxOf? b.name = some b.id.toNat := by
    refine List.idxOf?_eq_some_iff.mpr ⟨h, h.name_eq.symm, fun j hj heq => ?_⟩
    exact List.pairwise_iff_getElem.mp nodup_palette j b.id.toNat (Nat.lt_trans hj h) h hj
      (heq.trans h.name_eq)
  rw [ofName?, hname, hplace, Option.map_some]
  exact congrArg (fun id => some (Block.mk id)) UInt16.ofNat_toNat

/-- A known block is found by its name. -/
theorem ofName?_name (h : b.Known) : ofName? b.name = some b := by
  obtain ⟨hcolon, -, hplain⟩ := palette_spelling _ h.name_mem
  have hkey : Text.keyword b.name = b.name := by
    have hlower : b.name.toList.map Char.toLower = b.name.toList.map fun c => c :=
      List.map_congr_left fun c hc => (hplain c hc).2.2
    rw [List.map_id'] at hlower
    rw [Text.keyword, Text.trim, Text.trimList_of_plain fun c hc => (hplain c hc).2.1,
      String.ofList_toList, Text.lower, hlower, String.ofList_toList]
  exact h.ofName?_of_fullName (by rw [fullName, hkey, if_pos hcolon])

end Known

/-- What a name stands for is known. -/
theorem known_of_ofName? {name : String} {b : Block} (h : ofName? name = some b) : b.Known := by
  obtain ⟨i, hi, rfl⟩ := Option.map_eq_some_iff.mp h
  have hlt : i < palette.length := (List.idxOf?_eq_some_iff.mp hi).1
  show (UInt16.ofNat i).toNat < palette.length
  rw [UInt16.toNat_ofNat_of_lt' (Nat.lt_trans hlt (by decide))]
  exact hlt

end Block

namespace Bucket

/-! ### Shares -/

/-- Whether a share can come out of a text. -/
def Share.Readable (s : Share) : Prop := s.block.Known ∧ 0 < s.weight ∧ s.weight ≤ maxWeight

theorem toList_shareText (s : Share) : (shareText s).toList =
    if s.weight = 1 then s.block.name.toList
    else s.block.name.toList ++ ':' :: Text.Numeral.ofNat s.weight := by
  unfold shareText
  split
  · rfl
  · simp [numeral, Text.Numeral.ofInt]

/-- The written form of a share has neither a comma nor a blank in it. -/
theorem plain_shareText {s : Share} (h : s.block.Known) : (shareText s).toList ≠ [] ∧
    ∀ c ∈ (shareText s).toList, c ≠ ',' ∧ Text.isBlank c = false := by
  obtain ⟨hname, hplain⟩ := h.plain_name
  rw [toList_shareText]
  split
  · exact ⟨hname, hplain⟩
  · refine ⟨by simp, fun c hc => ?_⟩
    rcases List.mem_append.mp hc with hc | hc
    · exact hplain c hc
    rcases List.mem_cons.mp hc with rfl | hc
    · decide
    · have hdigit := Text.Numeral.isDigit_of_mem_ofNat hc
      exact ⟨fun heq => absurd (heq ▸ hdigit) (by decide), Text.isBlank_of_isDigit hdigit⟩

/-- A written share is read as itself. -/
theorem parseShare_shareText {s : Share} (h : Share.Readable s) :
    parseShare (shareText s).toList = .ok s := by
  obtain ⟨hknown, hpos, hle⟩ := h
  unfold parseShare
  rw [toList_shareText]
  by_cases hone : s.weight = 1
  · simp only [if_pos hone, hknown.weighted?_name, pure_bind, String.ofList_toList,
      if_neg Nat.one_ne_zero, hknown.ofName?_name]
    rw [← hone]
    rfl
  · have hdigits : (Text.Numeral.ofNat s.weight).all Char.isDigit = true :=
      List.all_eq_true.mpr fun _ hc => Text.Numeral.isDigit_of_mem_ofNat hc
    have hcut : weighted? (s.block.name.toList ++ ':' :: Text.Numeral.ofNat s.weight) =
        some (s.block.name.toList, Text.Numeral.ofNat s.weight) := by
      unfold weighted?
      rw [Text.cutLast?_append _ fun hmem =>
        absurd (Text.Numeral.isDigit_of_mem_ofNat hmem) (by decide)]
      exact if_pos hdigits
    have hweight : weight? (Text.Numeral.ofNat s.weight) = some s.weight := by
      unfold weight?
      rw [Text.Numeral.nat?_ofNat, Option.filter_some, if_pos (decide_eq_true hle)]
    simp only [if_neg hone, hcut, hweight, pure_bind, String.ofList_toList,
      if_neg (Nat.ne_of_gt hpos), hknown.ofName?_name]
    rfl

/-- What a part of a text is read as can be written. -/
theorem readable_of_parseShare {part : List Char} {s : Share} (h : parseShare part = .ok s) :
    Share.Readable s := by
  unfold parseShare at h
  cases hweighted : weighted? part with
  | none =>
      simp only [hweighted, pure_bind, if_neg Nat.one_ne_zero] at h
      split at h
      case h_1 block hblock =>
          cases h
          exact ⟨Block.known_of_ofName? hblock, Nat.one_pos, Nat.succ_le_succ (Nat.zero_le _)⟩
      case h_2 => cases h
  | some cut =>
      obtain ⟨name, digits⟩ := cut
      cases hweight : weight? digits with
      | none =>
          simp only [hweighted, hweight] at h
          cases h
      | some weight =>
          simp only [hweighted, hweight, pure_bind] at h
          by_cases hzero : weight = 0
          · rw [if_pos hzero] at h
            cases h
          · rw [if_neg hzero] at h
            split at h
            case h_1 block hblock =>
                cases h
                exact ⟨Block.known_of_ofName? hblock, Nat.pos_of_ne_zero hzero,
                  of_decide_eq_true (Option.filter_eq_some_iff.mp hweight).2⟩
            case h_2 => cases h

/-! ### Buckets -/

/-- Whether a bucket can come out of a text. -/
structure Readable (b : Bucket) : Prop where
  shares : ∀ s ∈ b.shares, Share.Readable s
  total_le : b.total ≤ maxWeight

/-- The parts of a bucket's text are the written forms of its shares. -/
theorem parts_text {b : Bucket} (h : ∀ s ∈ b.shares, Share.Readable s) :
    parts b.text = b.shares.map fun s => (shareText s).toList := by
  have hplain {part : List Char} (hpart : part ∈ b.shares.map fun s => (shareText s).toList) :
      part ≠ [] ∧ ∀ c ∈ part, c ≠ ',' ∧ Text.isBlank c = false := by
    obtain ⟨s, hs, rfl⟩ := List.mem_map.mp hpart
    exact plain_shareText (h s hs).1
  have hsplit : b.text.toList.splitOn ',' = b.shares.map fun s => (shareText s).toList := by
    rw [text, String.toList_intercalate, List.map_map]
    exact List.splitOn_intercalate ',' (fun part hpart hmem => ((hplain hpart).2 _ hmem).1 rfl)
      (by simp [Bucket.shares])
  have htrim : (b.shares.map fun s => (shareText s).toList).map Text.trimList =
      b.shares.map fun s => (shareText s).toList := by
    refine (List.map_congr_left (g := id) fun part hpart => ?_).trans (List.map_id _)
    exact Text.trimList_of_plain fun c hc => ((hplain hpart).2 c hc).2
  rw [parts, hsplit, htrim]
  exact List.filter_eq_self.mpr fun part hpart => by simpa using (hplain hpart).1

/-- The shares of a text are those that its parts are read as. -/
theorem parseShares_eq_ok_iff {text : String} {b : Bucket} :
    parseShares text = .ok b ↔ (parts text).mapM parseShare = .ok b.shares := by
  unfold parseShares
  cases (parts text).mapM parseShare with
  | error cause => exact ⟨nofun, nofun⟩
  | ok shares =>
      cases shares with
      | nil => exact ⟨nofun, nofun⟩
      | cons first rest =>
          constructor
          · intro h
            cases h
            rfl
          · intro h
            obtain ⟨first', rest'⟩ := b
            cases h
            rfl

/-- A text is read as the bucket of its shares, if their weights have a sum. -/
theorem read_eq_ok_iff {text : String} {b : Bucket} :
    read text = .ok b ↔ parseShares text = .ok b ∧ b.total ≤ maxWeight := by
  unfold read
  cases parseShares text with
  | error cause => exact ⟨nofun, fun h => nomatch h.1⟩
  | ok bucket =>
      by_cases hle : bucket.total ≤ maxWeight
      · simp only [if_pos hle]
        constructor
        · intro h
          cases h
          exact ⟨rfl, hle⟩
        · rintro ⟨h, -⟩
          cases h
          rfl
      · simp only [if_neg hle]
        refine iff_of_false nofun ?_
        rintro ⟨h, hle'⟩
        cases h
        exact hle hle'

/-- **The written form of a bucket** reads back as that bucket. -/
theorem read_text {b : Bucket} (h : b.Readable) : read b.text = .ok b := by
  rw [read_eq_ok_iff, parseShares_eq_ok_iff, parts_text h.shares]
  exact ⟨mapM_map_eq_ok fun s hs => parseShare_shareText (h.shares s hs), h.total_le⟩

/-- A bucket that was read from a text can be written. -/
theorem readable_of_read {text : String} {b : Bucket} (h : read text = .ok b) : b.Readable := by
  obtain ⟨hparse, htotal⟩ := read_eq_ok_iff.mp h
  refine ⟨fun s hs => ?_, htotal⟩
  obtain ⟨part, -, hpart⟩ := exists_of_mapM_eq_ok (parseShares_eq_ok_iff.mp hparse) hs
  exact readable_of_parseShare hpart

/-! ### Buckets as settings -/

theorem total_eq_sum (b : Bucket) : b.total = (b.shares.map Share.weight).sum := by
  rw [total, List.sum_eq_foldr, List.foldr_map]

/-- A text whose parts are read in full fails to be a bucket only by the sum of the weights. -/
theorem parse_of_shares {text : String} {b : Bucket} (h : parseShares text = .ok b) :
    parse text = if b.total ≤ maxWeight then .ok b else .error (.abort (.overflow .add)) := by
  unfold parse read
  by_cases hle : b.total ≤ maxWeight
  · simp only [h, if_pos hle]
  · simp only [h, if_neg hle]

/-- What is wrong with a text's parts is why it is refused. -/
theorem parse_of_error {text : String} {cause : BucketError} (h : parseShares text = .error cause) :
    parse text = .error (.config (.bucket cause)) := by
  unfold parse read
  simp only [h]

/-- As a setting, a text is read as it is read otherwise. -/
theorem parse_eq_ok_iff {text : String} {b : Bucket} : parse text = .ok b ↔ read text = .ok b := by
  unfold parse
  cases read text with
  | ok bucket =>
      constructor
      · intro h
        cases h
        rfl
      · intro h
        cases h
        rfl
  | error refusal => cases refusal <;> exact ⟨nofun, nofun⟩

/-- Reading a setting is cut off only where the weights of the shares have no sum. -/
theorem parse_eq_abort_iff {text : String} {abort : Abort} :
    parse text = .error (.abort abort) ↔
      abort = .overflow .add ∧ ∃ b, parseShares text = .ok b ∧ maxWeight < b.total := by
  cases hshares : parseShares text with
  | error cause =>
      rw [parse_of_error hshares]
      refine iff_of_false nofun ?_
      rintro ⟨-, b, h, -⟩
      cases h
  | ok bucket =>
      rw [parse_of_shares hshares]
      by_cases hle : bucket.total ≤ maxWeight
      · rw [if_pos hle]
        refine iff_of_false nofun ?_
        rintro ⟨-, b, h, hlarge⟩
        cases h
        omega
      · rw [if_neg hle]
        constructor
        · intro h
          cases h
          exact ⟨rfl, bucket, rfl, Nat.lt_of_not_le hle⟩
        · rintro ⟨rfl, -⟩
          rfl

/-- A setting is refused exactly where its parts are not read in full. -/
theorem exists_parse_eq_config_iff {text : String} :
    (∃ cause, parse text = .error (.config (.bucket cause))) ↔ ¬ ∃ b, parseShares text = .ok b := by
  cases hshares : parseShares text with
  | error cause =>
      rw [parse_of_error hshares]
      refine iff_of_true ⟨cause, rfl⟩ ?_
      rintro ⟨b, h⟩
      cases h
  | ok bucket =>
      rw [parse_of_shares hshares]
      refine iff_of_false ?_ fun h => h ⟨bucket, rfl⟩
      rintro ⟨cause, h⟩
      split at h <;> cases h

/-- What is read as a setting can be written. -/
theorem readable_of_parse {text : String} {b : Bucket} (h : parse text = .ok b) : b.Readable :=
  readable_of_read (parse_eq_ok_iff.mp h)

theorem readable_single {b : Block} (h : b.Known) : (single b).Readable where
  shares s hs := by
    cases List.mem_singleton.mp hs
    exact ⟨h, Nat.one_pos, Nat.succ_le_succ (Nat.zero_le _)⟩
  total_le := Nat.succ_le_succ (Nat.zero_le _)

/-! ### The written form as a canonical form -/

/-- **The written form is canonical.** Let a text be read as a bucket. The written form of that
bucket is read as the same bucket, so the result has the same shares and the same sum and is written
in the same way once more. And of all buckets that texts are read as, no other is written so. -/
theorem text_canonical {s : String} {b : Bucket} (h : parse s = .ok b) :
    parse b.text = .ok b ∧
      (∀ b', parse b.text = .ok b' →
        b'.shares = b.shares ∧ b'.total = b.total ∧ b'.text = b.text) ∧
      ∀ s' b', parse s' = .ok b' → (b'.text = b.text ↔ b' = b) := by
  have hagain {s' : String} {b' : Bucket} (h' : parse s' = .ok b') : parse b'.text = .ok b' :=
    parse_eq_ok_iff.mpr (read_text (readable_of_parse h'))
  refine ⟨hagain h, ?_, ?_⟩
  · intro b' hb'
    rw [hagain h] at hb'
    cases hb'
    exact ⟨rfl, rfl, rfl⟩
  · intro s' b' hb'
    constructor
    · intro htext
      have hsame := hagain hb'
      rw [htext, hagain h] at hsame
      exact (Except.ok.inj hsame).symm
    · rintro rfl
      rfl

/-- A bucket with a block that occurs twice, and a weight that is left out when it is written. -/
def mottled : Bucket := ⟨⟨.stone, 3⟩, [⟨.dirt, 1⟩, ⟨.stone, 1⟩]⟩

/-- It is read from a text with blanks, capitals, an empty part and weights written at length. -/
theorem text_canonical_mottled :
    parse " STONE :03 ,, minecraft:Dirt:1,stone" = .ok mottled ∧
      mottled.text = "minecraft:stone:3,minecraft:dirt,minecraft:stone" ∧
      parse "minecraft:stone:3,minecraft:dirt,minecraft:stone" = .ok mottled :=
  have hread : parse " STONE :03 ,, minecraft:Dirt:1,stone" = .ok mottled := rfl
  ⟨hread, rfl, (text_canonical hread).1⟩

end Bucket

end Cadastre
