import Cadastre.Proofs.Bucket
import Cadastre.Proofs.Edit
import Cadastre.Proofs.Text.Blank
import Cadastre.Settings.Modifier
/-!
# Cadastre.Proofs.Settings.Blanks

**Blanks around modifiers, and modifiers that are refused.** The key and the value of a modifier may
have blanks around them. All readers of values trim what they read, or the parts that they cut it
into, but one: a biome is looked up as it is written, and only then are the blanks dropped. So
blanks are of no account except around the name of a known biome (`Settings.modifier_trimmed`).

A modifier is read before it changes anything. So one that is refused leaves the settings alone, and
a modifier leaves a part of its work behind only where the height above the greatest number is
called for.
-/

namespace Cadastre

/-- Two answers that differ at most in how a complaint about settings is worded. -/
inductive Alike {α : Type} : Except Failure α → Except Failure α → Prop
  | ok (a : α) : Alike (.ok a) (.ok a)
  | refused (cause cause' : ConfigError) : Alike (.error (.config cause)) (.error (.config cause'))
  | cutOff (abort : Abort) : Alike (.error (.abort abort)) (.error (.abort abort))

theorem Alike.map {α β : Type} {x y : Except Failure α} (h : Alike x y) (f : α → β) :
    Alike (f <$> x) (f <$> y) := by
  cases h with
  | ok a => exact .ok (f a)
  | refused cause cause' => exact .refused cause cause'
  | cutOff abort => exact .cutOff abort

/-! ### Values and the blanks around them -/

namespace Bucket

theorem parts_trim (text : String) : parts (Text.trim text) = parts text := by
  have hcomma : Text.isBlank ',' = false := by decide
  rw [parts, parts, Text.toList_trim, Text.trimmed_splitOn_trimList hcomma]

/-- Texts of the same parts are read alike. Only the complaint that there is no part quotes the text
as a whole. -/
theorem parse_alike {text text' : String} (h : parts text = parts text') :
    Alike (parse text) (parse text') := by
  have hsame (b : Bucket) : parseShares text = .ok b ↔ parseShares text' = .ok b := by
    rw [parseShares_eq_ok_iff, parseShares_eq_ok_iff, h]
  cases hshares : parseShares text with
  | ok b =>
      rw [parse_of_shares hshares, parse_of_shares ((hsame b).mp hshares)]
      split
      · exact .ok b
      · exact .cutOff _
  | error cause =>
      cases hshares' : parseShares text' with
      | ok b =>
          rw [(hsame b).mpr hshares'] at hshares
          cases hshares
      | error cause' =>
          rw [parse_of_error hshares, parse_of_error hshares']
          exact .refused _ _

theorem parse_trim (text : String) : Alike (parse text) (parse (Text.trim text)) :=
  parse_alike (parts_trim text).symm

end Bucket

/-! ### Biomes -/

theorem Block.solid_nameSpace : Text.Solid nameSpace.toList := by
  have hall : nameSpace.toList.all (fun c => !Text.isBlank c) = true := by decide +kernel
  intro c hc
  simpa using List.all_eq_true.mp hall c hc

theorem Biome.solid_table : ∀ entry ∈ table, Text.Solid entry.1.toList := by
  have hall : table.all (fun entry => entry.1.toList.all fun c => !Text.isBlank c) = true := by
    decide +kernel
  intro entry hentry c hc
  simpa using List.all_eq_true.mp (List.all_eq_true.mp hall entry hentry) c hc

/-- The name of a known biome has no blank in it. -/
theorem Biome.solid_of_id? {name : String} (h : (id? name).isSome = true) :
    Text.Solid name.toList := by
  obtain ⟨id, hid⟩ := Option.isSome_iff_exists.mp h
  obtain ⟨before, after, hentry, -⟩ := List.lookup_eq_some_iff.mp hid
  have hmem : (String.ofList ((bareName name).map Char.toLower), id) ∈ table := by
    rw [hentry]
    exact List.mem_append_right _ List.mem_cons_self
  have hbare : Text.Solid (bareName name) := by
    have hlower := solid_table _ hmem
    rw [String.toList_ofList] at hlower
    exact Text.solid_of_map_toLower hlower
  unfold bareName at hbare
  split at hbare
  · rename_i hprefix
    obtain ⟨rest, hrest⟩ := List.isPrefixOf_iff_prefix.mp hprefix
    rw [← hrest, List.drop_left] at hbare
    rw [← hrest]
    intro c hc
    rcases List.mem_append.mp hc with hc | hc
    · exact Block.solid_nameSpace c hc
    · exact hbare c hc
  · exact hbare

theorem Biome.trim_of_id? {name : String} (h : (id? name).isSome = true) :
    Text.trim name = name := by
  rw [Text.trim, Text.trimList_of_plain (solid_of_id? h), String.ofList_toList]

/-! ### Modifiers -/

namespace Modifier

variable {key value : String}

theorem parseNumber_trim (key key' value : String) :
    Alike (parseNumber key value) (parseNumber key' (Text.trim value)) := by
  unfold parseNumber
  rw [Text.toList_trim, Text.trimList_trimList]
  cases (Text.Numeral.int? (Text.trimList value.toList)).bind fit? with
  | none => exact .refused _ _
  | some n => exact .ok n

theorem parseTerrain_trim (value : String) :
    Alike (parseTerrain value) (parseTerrain (Text.trim value)) := by
  unfold parseTerrain Terrain.ofName?
  rw [Text.keyword_trim]
  cases Terrain.ofExactName? (Text.keyword value) with
  | none => exact .refused _ _
  | some t => exact .ok t

theorem parseBedrock_trim (value : String) :
    Alike (parseBedrock value) (parseBedrock (Text.trim value)) := by
  unfold parseBedrock
  rw [Text.trim_trim]
  split
  · exact .ok true
  · exact .ok false
  · exact .refused _ _

/-- Whether a modifier names a known biome with blanks around the name. -/
def PadsBiome (key value : String) : Prop :=
  Text.keyword key = "biome" ∧ (Biome.id? (Text.trim value)).isSome = true ∧
    Text.trim value ≠ value

/-- With blanks around it, a biome's name is known to nobody. -/
theorem not_known_of_padded (h : Text.trim value ≠ value) : ¬ (Biome.id? value).isSome = true :=
  fun hknown => h (Biome.trim_of_id? hknown)

theorem parseBiome_trim (h : ¬ ((Biome.id? (Text.trim value)).isSome = true ∧
    Text.trim value ≠ value)) : Alike (parseBiome value) (parseBiome (Text.trim value)) := by
  unfold parseBiome
  rw [Text.trim_trim]
  by_cases hpadded : Text.trim value = value
  · rw [hpadded]
    split
    · exact .ok value
    · exact .refused _ _
  · rw [if_neg (not_known_of_padded hpadded), if_neg fun hknown => h ⟨hknown, hpadded⟩]
    exact .refused _ _

/-- A modifier is read alike with and without blanks, if it does not pad the name of a biome. -/
theorem parse_trim (h : ¬ PadsBiome key value) :
    Alike (parse key value) (parse (Text.trim key) (Text.trim value)) := by
  unfold parse
  rw [Text.keyword_trim]
  split
  case h_1 | h_2 | h_3 | h_4 | h_5 | h_6 => exact (parseNumber_trim key _ value).map _
  case h_7 | h_8 | h_9 | h_10 | h_11 | h_12 | h_13 | h_14 | h_15 =>
    exact (Bucket.parse_trim value).map _
  case h_16 => exact (parseTerrain_trim value).map _
  case h_17 => exact (parseBedrock_trim value).map _
  case h_18 hkey => exact (parseBiome_trim fun hvalue => h ⟨hkey, hvalue⟩).map _
  case h_19 => exact .refused _ _

/-- What pads a biome is refused, and known without the blanks. -/
theorem parse_of_padsBiome (h : PadsBiome key value) :
    parse key value = .error (.config (.biome value)) ∧
      parse (Text.trim key) (Text.trim value) = .ok (.biome (Text.trim value)) := by
  obtain ⟨hkey, hknown, hpadded⟩ := h
  unfold parse parseBiome
  rw [Text.keyword_trim, hkey, Text.trim_trim, if_neg (not_known_of_padded hpadded), if_pos hknown]
  exact ⟨rfl, rfl⟩

/-- A modifier that is not read is refused as a setting or cut off. -/
theorem eq_config_or_abort {e : Failure} (h : parse key value = .error e) :
    (∃ complaint, e = .config complaint) ∨ ∃ abort, e = .abort abort := by
  by_cases hpads : PadsBiome key value
  · rw [(parse_of_padsBiome hpads).1] at h
    cases h
    exact .inl ⟨_, rfl⟩
  · -- What is like another answer can be no other failure.
    have halike := parse_trim hpads
    rw [h] at halike
    generalize parse (Text.trim key) (Text.trim value) = trimmed at halike
    cases halike with
    | refused cause cause' => exact .inl ⟨cause, rfl⟩
    | cutOff abort => exact .inr ⟨abort, rfl⟩

/-! ### What cuts a modifier off -/

/-- The keys of the modifiers whose value is a bucket. -/
def bucketKeys : List String := ["f", "floor", "m", "main", "w", "wall", "b", "border", "road"]

/-- Whether the value of a modifier is a bucket whose weights have no sum of 32 bits. -/
def Overweighs (key value : String) : Prop :=
  Text.keyword key ∈ bucketKeys ∧ Bucket.parse value = .error (.abort (.overflow .add))

/-- Whether a modifier puts the walls one block above the greatest number. -/
def Towers (key value : String) : Prop :=
  Text.keyword key ∈ ["h", "height"] ∧ parseNumber key value = .ok 2147483647

variable {abort : Abort}

theorem parseNumber_ne_abort : parseNumber key value ≠ .error (.abort abort) := by
  unfold parseNumber
  split <;> exact nofun

theorem parseTerrain_ne_abort : parseTerrain value ≠ .error (.abort abort) := by
  unfold parseTerrain
  split <;> exact nofun

theorem parseBedrock_ne_abort : parseBedrock value ≠ .error (.abort abort) := by
  unfold parseBedrock
  split <;> exact nofun

theorem parseBiome_ne_abort : parseBiome value ≠ .error (.abort abort) := by
  unfold parseBiome
  split <;> exact nofun

/-- Only the weights of a bucket can cut the reading of a modifier off. -/
theorem parse_eq_abort_iff :
    parse key value = .error (.abort abort) ↔ abort = .overflow .add ∧ Overweighs key value := by
  have hother {α : Type} {x : Except Failure α} {make : α → Modifier}
      (hx : x ≠ .error (.abort abort)) (hkey : Text.keyword key ∉ bucketKeys) :
      make <$> x = .error (.abort abort) ↔ abort = .overflow .add ∧ Overweighs key value :=
    iff_of_false (fun h => hx (eq_error_of_map_eq_error h)) fun h => hkey h.2.1
  have hbucket {make : Bucket → Modifier} (hkey : Text.keyword key ∈ bucketKeys) :
      make <$> Bucket.parse value = .error (.abort abort) ↔
        abort = .overflow .add ∧ Overweighs key value := by
    constructor
    · intro h
      have hparse := eq_error_of_map_eq_error h
      obtain ⟨rfl, -⟩ := Bucket.parse_eq_abort_iff.mp hparse
      exact ⟨rfl, hkey, hparse⟩
    · rintro ⟨rfl, -, hparse⟩
      rw [hparse]
      rfl
  unfold parse
  split
  case h_1 hkey | h_2 hkey | h_3 hkey | h_4 hkey | h_5 hkey | h_6 hkey =>
    exact hother parseNumber_ne_abort (by rw [hkey]; decide)
  case h_7 hkey | h_8 hkey | h_9 hkey | h_10 hkey | h_11 hkey | h_12 hkey | h_13 hkey | h_14 hkey |
      h_15 hkey =>
    exact hbucket (by rw [hkey]; decide)
  case h_16 hkey => exact hother parseTerrain_ne_abort (by rw [hkey]; decide)
  case h_17 hkey => exact hother parseBedrock_ne_abort (by rw [hkey]; decide)
  case h_18 hkey => exact hother parseBiome_ne_abort (by rw [hkey]; decide)
  case h_19 =>
    refine iff_of_false nofun ?_
    rintro ⟨-, hkey, -⟩
    simp_all [bucketKeys]

/-- A modifier is of the height exactly if its key says so. -/
theorem parse_eq_height_iff {n : Int32} : parse key value = .ok (height n) ↔
    Text.keyword key ∈ ["h", "height"] ∧ parseNumber key value = .ok n := by
  have hother {α : Type} {x : Except Failure α} {make : α → Modifier}
      (hmake : ∀ a, make a ≠ height n) (hkey : Text.keyword key ∉ ["h", "height"]) :
      make <$> x = .ok (height n) ↔
        Text.keyword key ∈ ["h", "height"] ∧ parseNumber key value = .ok n := by
    refine iff_of_false ?_ fun h => hkey h.1
    intro h
    obtain ⟨a, -, ha⟩ := exists_of_map_eq_ok h
    exact hmake a ha
  have hheight (hkey : Text.keyword key ∈ ["h", "height"]) :
      height <$> parseNumber key value = .ok (height n) ↔
        Text.keyword key ∈ ["h", "height"] ∧ parseNumber key value = .ok n := by
    constructor
    · intro h
      obtain ⟨a, hparse, ha⟩ := exists_of_map_eq_ok h
      cases ha
      exact ⟨hkey, hparse⟩
    · rintro ⟨-, hparse⟩
      rw [hparse]
      rfl
  unfold parse
  split
  case h_5 hkey | h_6 hkey => exact hheight (by rw [hkey]; decide)
  case h_19 =>
    refine iff_of_false nofun ?_
    rintro ⟨hkey, -⟩
    simp_all
  all_goals
    rename_i hkey
    exact hother nofun (by rw [hkey]; decide)

end Modifier

namespace Settings

variable {key value : String}

theorem applyModifier_of_ok {m : Modifier} (h : Modifier.parse key value = .ok m) (s : Settings) :
    (applyModifier key value).outcome s = m.apply.outcome s := by
  unfold applyModifier
  rw [h]
  rfl

/-- A modifier that cannot be read changes nothing. -/
theorem applyModifier_of_error {e : Failure} (h : Modifier.parse key value = .error e)
    (s : Settings) : (applyModifier key value).outcome s = (.error e, s) := by
  unfold applyModifier
  rw [h]
  rfl

theorem outcome_height (n : Int32) (s : Settings) : (Modifier.height n).apply.outcome s =
    if n.toInt = 2147483647 then
      (.error (.abort (.overflow .add)), { s with plotHeight := n, roadHeight := n })
    else
      (.ok (), { s with plotHeight := n, roadHeight := n,
                        wallHeight := Int32.ofInt (n.toInt + 1) }) := by
  rw [Modifier.apply, Checked.add_one]
  split <;> rfl

/-- What a modifier does comes to its end unless it puts the walls above the greatest number. -/
theorem apply_cases (m : Modifier) (s : Settings) :
    (∃ s', m.apply.outcome s = (.ok (), s')) ∨
      m = .height 2147483647 ∧ m.apply.outcome s =
        (.error (.abort (.overflow .add)),
          { s with plotHeight := 2147483647, roadHeight := 2147483647 }) := by
  cases m with
  | height n =>
      by_cases hn : n.toInt = 2147483647
      · have hmax : n = 2147483647 := Int32.toInt_inj.mp hn
        subst hmax
        exact .inr ⟨rfl, by rw [outcome_height, if_pos hn]⟩
      · exact .inl ⟨_, by rw [outcome_height, if_neg hn]⟩
  | _ => exact .inl ⟨_, rfl⟩

/-- Without a padded biome, blanks are of no account. -/
theorem applyModifier_alike (h : ¬ Modifier.PadsBiome key value) (s : Settings) :
    Alike ((applyModifier key value).outcome s).1
        ((applyModifier (Text.trim key) (Text.trim value)).outcome s).1 ∧
      ((applyModifier key value).outcome s).2 =
        ((applyModifier (Text.trim key) (Text.trim value)).outcome s).2 := by
  have halike := Modifier.parse_trim h
  generalize hwritten : Modifier.parse key value = written at halike
  generalize htrimmed : Modifier.parse (Text.trim key) (Text.trim value) = trimmed at halike
  cases halike with
  | ok m =>
      rw [applyModifier_of_ok hwritten, applyModifier_of_ok htrimmed]
      refine ⟨?_, rfl⟩
      obtain ⟨s', hend⟩ | ⟨-, hend⟩ := apply_cases m s
      · rw [hend]
        exact .ok ()
      · rw [hend]
        exact .cutOff _
  | refused cause cause' =>
      rw [applyModifier_of_error hwritten, applyModifier_of_error htrimmed]
      exact ⟨.refused cause cause', rfl⟩
  | cutOff abort =>
      rw [applyModifier_of_error hwritten, applyModifier_of_error htrimmed]
      exact ⟨.cutOff abort, rfl⟩

/-- The ways in which a modifier can end. -/
theorem applyModifier_cases (key value : String) (s : Settings) :
    (∃ s', (applyModifier key value).outcome s = (.ok (), s')) ∨
    (∃ complaint, (applyModifier key value).outcome s = (.error (.config complaint), s)) ∨
    (Modifier.Towers key value ∧ (applyModifier key value).outcome s =
      (.error (.abort (.overflow .add)),
        { s with plotHeight := 2147483647, roadHeight := 2147483647 })) ∨
    (Modifier.Overweighs key value ∧
      (applyModifier key value).outcome s = (.error (.abort (.overflow .add)), s)) := by
  cases hparse : Modifier.parse key value with
  | ok m =>
      rw [applyModifier_of_ok hparse]
      obtain ⟨s', hend⟩ | ⟨rfl, hend⟩ := apply_cases m s
      · exact .inl ⟨s', hend⟩
      · exact .inr (.inr (.inl ⟨Modifier.parse_eq_height_iff.mp hparse, hend⟩))
  | error e =>
      rw [applyModifier_of_error hparse]
      obtain ⟨complaint, rfl⟩ | ⟨abort, rfl⟩ := Modifier.eq_config_or_abort hparse
      · exact .inr (.inl ⟨complaint, rfl⟩)
      · obtain ⟨rfl, hheavy⟩ := Modifier.parse_eq_abort_iff.mp hparse
        exact .inr (.inr (.inr ⟨hheavy, rfl⟩))

/-- **Modifiers and blanks.** Applied as it is written and applied without the blanks around its key
and its value, a modifier leaves the same settings and gives answers that differ at most in the
words of a complaint, exactly unless it names a known biome with blanks around the name. In that
case it is refused as it is written, though it is known without the blanks. Whatever the modifier:
if it is refused, the settings are as they were. And it is cut off in two cases only, by an
overflow: where the walls would have to be one block above the greatest number, and then the heights
of plots and roads are set; and where the weights of a bucket have no sum, and then nothing is. -/
theorem modifier_trimmed (key value : String) (s : Settings) :
    (Alike ((applyModifier key value).outcome s).1
        ((applyModifier (Text.trim key) (Text.trim value)).outcome s).1 ∧
      ((applyModifier key value).outcome s).2 =
        ((applyModifier (Text.trim key) (Text.trim value)).outcome s).2 ↔
      ¬ Modifier.PadsBiome key value) ∧
    (Modifier.PadsBiome key value →
      (applyModifier key value).outcome s = (.error (.config (.biome value)), s) ∧
      (applyModifier (Text.trim key) (Text.trim value)).outcome s =
        (.ok (), { s with biome := Text.trim value })) ∧
    (∀ cause s', (applyModifier key value).outcome s = (.error (.error cause), s') →
      s' = s ∧ ∃ complaint, cause = .configuration complaint) ∧
    ∀ abort s', (applyModifier key value).outcome s = (.error (.abort abort), s') ↔
      abort = .overflow .add ∧
        (Modifier.Towers key value ∧
            s' = { s with plotHeight := 2147483647, roadHeight := 2147483647 } ∨
          Modifier.Overweighs key value ∧ s' = s) := by
  refine ⟨⟨?_, fun hpads => applyModifier_alike hpads s⟩, ?_, ?_, ?_⟩
  · rintro ⟨halike, -⟩ hpads
    obtain ⟨hrefused, hknown⟩ := Modifier.parse_of_padsBiome hpads
    rw [applyModifier_of_error hrefused, applyModifier_of_ok hknown] at halike
    cases halike
  · intro hpads
    obtain ⟨hrefused, hknown⟩ := Modifier.parse_of_padsBiome hpads
    rw [applyModifier_of_error hrefused, applyModifier_of_ok hknown]
    exact ⟨rfl, rfl⟩
  · intro cause s' hend
    obtain ⟨s₁, h⟩ | ⟨complaint, h⟩ | ⟨-, h⟩ | ⟨-, h⟩ := applyModifier_cases key value s
    all_goals
      rw [h] at hend
      cases hend
    exact ⟨rfl, complaint, rfl⟩
  · intro abort s'
    constructor
    · intro hend
      obtain ⟨s₁, h⟩ | ⟨complaint, h⟩ | ⟨htowers, h⟩ | ⟨hheavy, h⟩ :=
        applyModifier_cases key value s
      all_goals
        rw [h] at hend
        cases hend
      · exact ⟨rfl, .inl ⟨htowers, rfl⟩⟩
      · exact ⟨rfl, .inr ⟨hheavy, rfl⟩⟩
    · rintro ⟨rfl, ⟨htowers, rfl⟩ | ⟨hheavy, rfl⟩⟩
      · rw [applyModifier_of_ok (Modifier.parse_eq_height_iff.mpr htowers), outcome_height]
        exact if_pos rfl
      · exact applyModifier_of_error (Modifier.parse_eq_abort_iff.mpr ⟨rfl, hheavy⟩) s'

/-- A tab before the name of a biome is why it is refused, and the settings stay as they were. A
bucket whose weights have no sum is cut off with and without the blanks around it. -/
theorem modifier_trimmed_early_ends :
    (Modifier.PadsBiome "BIOME " "\tminecraft:Ocean" ∧
      (applyModifier "BIOME " "\tminecraft:Ocean").outcome {} =
        (.error (.config (.biome "\tminecraft:Ocean")), {}) ∧
      (applyModifier (Text.trim "BIOME ") (Text.trim "\tminecraft:Ocean")).outcome {} =
        (.ok (), { biome := "minecraft:Ocean" })) ∧
    (Modifier.Overweighs " Floor" "stone:4294967295, dirt\t" ∧
      (applyModifier " Floor" "stone:4294967295, dirt\t").outcome {} =
        (.error (.abort (.overflow .add)), {}) ∧
      Alike ((applyModifier " Floor" "stone:4294967295, dirt\t").outcome {}).1
        ((applyModifier (Text.trim " Floor")
          (Text.trim "stone:4294967295, dirt\t")).outcome {}).1) := by
  refine ⟨?_, ?_⟩
  · have hpads : Modifier.PadsBiome "BIOME " "\tminecraft:Ocean" := ⟨rfl, rfl, by decide⟩
    obtain ⟨-, hpadded, -⟩ := modifier_trimmed "BIOME " "\tminecraft:Ocean" {}
    exact ⟨hpads, hpadded hpads⟩
  · have hheavy : Modifier.Overweighs " Floor" "stone:4294967295, dirt\t" := ⟨by decide, rfl⟩
    have hplain : ¬ Modifier.PadsBiome " Floor" "stone:4294967295, dirt\t" := by
      rintro ⟨hkey, -⟩
      exact absurd hkey (by decide)
    obtain ⟨hblanks, -, -, hcut⟩ := modifier_trimmed " Floor" "stone:4294967295, dirt\t" {}
    exact ⟨hheavy, (hcut _ _).mpr ⟨rfl, .inr ⟨hheavy, rfl⟩⟩, (hblanks.mpr hplain).1⟩

/-- A known biome with a blank before its name is refused, and without the blank it is set. -/
theorem padded_biome_refused :
    (applyModifier "biome" " desert").outcome {} = (.error (.config (.biome " desert")), {}) ∧
      (applyModifier (Text.trim "biome") (Text.trim " desert")).outcome {} =
        (.ok (), { biome := "desert" }) := by
  have hpads : Modifier.PadsBiome "biome" " desert" := ⟨rfl, rfl, by decide⟩
  obtain ⟨hrefused, hknown⟩ := Modifier.parse_of_padsBiome hpads
  exact ⟨applyModifier_of_error hrefused {}, applyModifier_of_ok hknown {}⟩

end Settings

end Cadastre
