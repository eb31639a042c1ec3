import Cadastre.Proofs.Bucket
import Cadastre.Proofs.Edit
import Cadastre.Proofs.Json.Records
import Cadastre.Server.Config
import Cadastre.Settings.Fit
/-!
# Cadastre.Proofs.Settings.Document

**Settings survive being written and read.** All that settings hold has a written form that reads
back as itself, but for buckets that no text gives (`Settings.reads_json`). No such bucket ever gets
into settings: not by reading them, by modifiers, or by fitting them to a region. So whatever was
made of settings in these ways, their text reads back as them (`settings_round_trip`), and so does
the text of a world's settings.
-/

namespace Cadastre

open Json

/-! ### Values in settings -/

theorem Terrain.reads_json (t : Terrain) : decoder.Reads t.json t :=
  Decoder.reads_choice t.ofExactName?_name

theorem WorldMode.reads_json (m : WorldMode) : decoder.Reads m.json m :=
  Decoder.reads_choice m.ofName?_name

theorem PlotId.reads_json (id : PlotId) : decoder.Reads id.json id :=
  Decoder.reads_record (by decide)
    (.cons (RecordField.set_of (Decoder.reads_int32 _) _)
      (.cons (RecordField.set_of (Decoder.reads_int32 _) _) (.nil _))) true

theorem Bucket.reads_json {b : Bucket} (h : b.Readable) : decoder.Reads b.json b := by
  unfold Decoder.Reads json reading decoder
  simp only [Decoder.string, pure_bind, read_text h]
  rfl

/-- A bucket that was read from a document can be written. -/
theorem Bucket.readable_of_decoder {r : Reading} {b : Bucket} (h : decoder r = .ok b) :
    b.Readable := by
  obtain ⟨text, -, h⟩ := exists_of_bind_eq_ok h
  split at h
  case h_1 bucket hread =>
      cases h
      exact readable_of_read hread
  all_goals cases h

/-- An optional value is written as `null` or as the value. -/
theorem Settings.reads_optional {α : Type} {decoder : Decoder α} {json : α → Json}
    (h : ∀ a, decoder.Reads (json a) a) (hnull : ∀ a, (json a).reading ≠ .null) (o : Option α) :
    (Decoder.option decoder).Reads (optional json o) o := by
  cases o with
  | none => rfl
  | some a =>
      have hdecoded : decoder (json a).reading = .ok a := h a
      show Decoder.option decoder (json a).reading = .ok (some a)
      unfold Decoder.option
      split
      case h_1 hreading => exact absurd hreading (hnull a)
      case h_2 =>
          rw [hdecoded]
          rfl

namespace Settings

/-- Whether every bucket of settings can come out of a text. -/
structure Readable (s : Settings) : Prop where
  floor : s.floor.Readable
  main : s.main.Readable
  wallFilling : s.wallFilling.Readable
  wallBorder : s.wallBorder.Readable
  road : s.road.Readable

theorem readable_default : ({} : Settings).Readable where
  floor := Bucket.readable_single (by unfold Block.Known; decide)
  main := Bucket.readable_single (by unfold Block.Known; decide)
  wallFilling := Bucket.readable_single (by unfold Block.Known; decide)
  wallBorder := Bucket.readable_single (by unfold Block.Known; decide)
  road := Bucket.readable_single (by unfold Block.Known; decide)

/-- **What is written of settings** reads back as the settings. -/
theorem reads_json {s : Settings} (h : s.Readable) : decoder.Reads s.json s := by
  have hplot (o : Option PlotId) :
      (Decoder.option PlotId.decoder).Reads (optional PlotId.json o) o :=
    reads_optional PlotId.reads_json (fun _ => nofun) o
  have hint (n : Int32) := Decoder.reads_int32 n
  refine Decoder.reads_record (by decide) ?_ false
  exact
    .cons (RecordField.set_of (hint s.plotSize) _) <|
    .cons (RecordField.set_of (hint s.roadWidth) _) <|
    .cons (RecordField.set_of (hint s.plotHeight) _) <|
    .cons (RecordField.set_of (hint s.roadHeight) _) <|
    .cons (RecordField.set_of (hint s.wallHeight) _) <|
    .cons (RecordField.set_of (Decoder.reads_bool s.bedrock) _) <|
    .cons (RecordField.set_of (Bucket.reads_json h.floor) _) <|
    .cons (RecordField.set_of (Bucket.reads_json h.main) _) <|
    .cons (RecordField.set_of (Bucket.reads_json h.wallFilling) _) <|
    .cons (RecordField.set_of (Bucket.reads_json h.wallBorder) _) <|
    .cons (RecordField.set_of (Bucket.reads_json h.road) _) <|
    .cons (RecordField.set_of (Decoder.reads_string s.biome) _) <|
    .cons (RecordField.set_of s.terrain.reads_json _) <|
    .cons (RecordField.set_of (hplot s.minPlot) _) <|
    .cons (RecordField.set_of (hplot s.maxPlot) _) <|
    .cons (RecordField.set_of (hint s.roadOffsetX) _) <|
    .cons (RecordField.set_of (hint s.roadOffsetZ) _) <| .nil _

/-! ### What settings are made from -/

theorem keeps_fields : ∀ field ∈ fields, field.Keeps Readable := by
  have hplain {α : Type} {name : String} {decoder : Decoder α} {put : α → Settings → Settings}
      (h : ∀ a s, s.Readable → (put a s).Readable) :
      (RecordField.of name decoder put).Keeps Readable :=
    RecordField.keeps_of fun _ hs => h _ _ hs
  have hbucket {name : String} {put : Bucket → Settings → Settings}
      (h : ∀ b s, b.Readable → s.Readable → (put b s).Readable) :
      (RecordField.of name Bucket.decoder put).Keeps Readable :=
    RecordField.keeps_of fun hdecoded hs => h _ _ (Bucket.readable_of_decoder hdecoded) hs
  simp only [fields, List.forall_mem_cons]
  exact ⟨hplain fun _ _ h => { h with }, hplain fun _ _ h => { h with },
    hplain fun _ _ h => { h with }, hplain fun _ _ h => { h with }, hplain fun _ _ h => { h with },
    hplain fun _ _ h => { h with }, hbucket fun _ _ hb h => { h with floor := hb },
    hbucket fun _ _ hb h => { h with main := hb },
    hbucket fun _ _ hb h => { h with wallFilling := hb },
    hbucket fun _ _ hb h => { h with wallBorder := hb },
    hbucket fun _ _ hb h => { h with road := hb }, hplain fun _ _ h => { h with },
    hplain fun _ _ h => { h with }, hplain fun _ _ h => { h with }, hplain fun _ _ h => { h with },
    hplain fun _ _ h => { h with }, hplain fun _ _ h => { h with }, List.forall_mem_nil _⟩

theorem readable_of_decoder {r : Reading} {s : Settings} (h : decoder r = .ok s) : s.Readable :=
  Decoder.record_keeps keeps_fields h readable_default

end Settings

/-- Whether the bucket that a modifier sets, if it sets one, can come out of a text. -/
def Modifier.Readable : Modifier → Prop
  | floor b | main b | wallFilling b | wallBorder b | road b => b.Readable
  | _ => True

theorem Modifier.readable_of_parse {key value : String} {m : Modifier}
    (h : parse key value = .ok m) : m.Readable := by
  unfold parse at h
  split at h
  case h_19 => cases h
  all_goals
    obtain ⟨a, ha, rfl⟩ := exists_of_map_eq_ok h
    first
    | exact trivial
    | exact Bucket.readable_of_parse ha

namespace Settings

/-- Whether an edit leaves settings that can be written as such. -/
abbrev Preserves (edit : Edit Settings Unit) : Prop :=
  edit.Leads fun s s' => s.Readable → s'.Readable

variable {edit : Edit Settings Unit}

theorem preserves_liftM_bind {α : Type} (x : Except Failure α) {f : α → Edit Settings Unit}
    (hf : ∀ a, Preserves (f a)) : Preserves (liftM x >>= f) :=
  Edit.Leads.liftM_bind (fun _ hs => hs) x hf

theorem Preserves.bind {f : Unit → Edit Settings Unit} (h : Preserves edit)
    (hf : ∀ u, Preserves (f u)) : Preserves (edit >>= f) :=
  Edit.Leads.bind (fun _ _ _ hfirst hrest hs => hrest (hfirst hs)) h hf

theorem preserves_apply {m : Modifier} (h : m.Readable) : Preserves m.apply := by
  cases m with
  | floor b => exact fun s hs => { hs with floor := h }
  | main b => exact fun s hs => { hs with main := h }
  | wallFilling b => exact fun s hs => { hs with wallFilling := h }
  | wallBorder b => exact fun s hs => { hs with wallBorder := h }
  | road b => exact fun s hs => { hs with road := h }
  | height n =>
      exact Preserves.bind (fun s hs => { hs with }) fun _ =>
        preserves_liftM_bind _ fun _ s hs => { hs with }
  | _ => exact fun s hs => { hs with }

theorem preserves_applyModifier (key value : String) : Preserves (applyModifier key value) := by
  intro s
  unfold applyModifier
  cases hparse : Modifier.parse key value with
  | error e => exact fun hs => hs
  | ok m => exact preserves_apply (Modifier.readable_of_parse hparse) s

theorem preserves_applyModifiers (assignments : List String) :
    Preserves (applyModifiers assignments) := by
  refine Edit.Leads.forM (fun _ hs => hs) (fun _ _ _ hfirst hrest hs => hrest (hfirst hs))
    (fun text => ?_) assignments
  refine preserves_liftM_bind _ fun assignment => ?_
  obtain ⟨key, value⟩ := assignment
  exact preserves_applyModifier key value

/-- Fitting concerns no bucket. -/
theorem preserves_fit (ax az bx bz : Int32) : Preserves (fit ax az bx bz) := by
  refine Edit.Leads.get_bind fun s => ?_
  refine preserves_liftM_bind _ fun _ => preserves_liftM_bind _ fun _ =>
    preserves_liftM_bind _ fun _ => preserves_liftM_bind _ fun _ => preserves_liftM_bind _ fun _ =>
    preserves_liftM_bind _ fun _ => preserves_liftM_bind _ fun _ => preserves_liftM_bind _ fun _ =>
    preserves_liftM_bind _ fun _ => ?_
  refine Preserves.bind (fun s hs => { hs with }) fun _ => preserves_liftM_bind _ fun _ => ?_
  refine Preserves.bind (fun s hs => { hs with }) fun _ => preserves_liftM_bind _ fun _ => ?_
  exact fun s hs => { hs with }

/-- Settings that were made from the defaults or read from a text, and then changed by modifiers and
by fitting, whether these came to their end or not. -/
inductive Made : Settings → Prop
  | default : Made {}
  | read {text : String} {s : Settings} (h : ofText text = .ok s) : Made s
  | modified {s : Settings} (h : Made s) (key value : String) :
      Made ((applyModifier key value).outcome s).2
  | modifiedAll {s : Settings} (h : Made s) (assignments : List String) :
      Made ((applyModifiers assignments).outcome s).2
  | fitted {s : Settings} (h : Made s) (ax az bx bz : Int32) :
      Made ((fit ax az bx bz).outcome s).2

theorem Made.readable {s : Settings} (h : s.Made) : s.Readable := by
  induction h with
  | default => exact readable_default
  | read h =>
      obtain ⟨s, hdecoded, h⟩ := exists_of_bind_eq_ok h
      split at h
      · cases h
        exact readable_of_decoder hdecoded
      · cases h
  | modified _ key value ih => exact preserves_applyModifier key value _ ih
  | modifiedAll _ assignments ih => exact preserves_applyModifiers assignments _ ih
  | fitted _ ax az bx bz ih => exact preserves_fit ax az bx bz _ ih

end Settings

namespace WorldSpec

/-- What is written of a world's settings reads back as them. -/
theorem reads_json {spec : WorldSpec} (h : spec.area.Readable) : decoder.Reads spec.json spec := by
  refine Decoder.reads_record (by decide) ?_ false
  exact
    .cons (RecordField.set_of (Settings.reads_json h) _) <|
    .cons (RecordField.set_of spec.mode.reads_json _) <|
    .cons (RecordField.set_of (Decoder.reads_int32 spec.radius) _) <|
    .cons (RecordField.set_of (Decoder.reads_list fun s _ => Decoder.reads_string s) _) <|
    .cons (RecordField.set_of (Decoder.reads_int32 spec.foreignHeight) _) <| .nil _

theorem readable_of_decoder {r : Reading} {spec : WorldSpec} (h : decoder r = .ok spec) :
    spec.area.Readable := by
  have hfields : ∀ field ∈ fields, field.Keeps fun spec => spec.area.Readable := by
    simp only [fields, List.forall_mem_cons]
    exact ⟨RecordField.keeps_of fun hdecoded _ => Settings.readable_of_decoder hdecoded,
      RecordField.keeps_of fun _ h => h, RecordField.keeps_of fun _ h => h,
      RecordField.keeps_of fun _ h => h, RecordField.keeps_of fun _ h => h, List.forall_mem_nil _⟩
  exact Decoder.record_keeps hfields h Settings.readable_default

end WorldSpec

/-- **Settings survive being written and read.** Let settings have been made from the defaults or
read from a text, and changed by any number of modifiers and fittings, in any order. Their text
reads back as these settings. And let the settings of a world have been read from any document, on
its own or within a larger one. Their text reads back as these settings. -/
theorem settings_round_trip :
    (∀ s : Settings, s.Made → Settings.ofText s.text = .ok s) ∧
    ∀ (r : Reading) (spec : WorldSpec), WorldSpec.decoder r = .ok spec →
      decode WorldSpec.decoder spec.json.text = .ok spec := by
  constructor
  · intro s hs
    exact (Settings.reads_json hs.readable).decode
  · intro r spec hspec
    exact (WorldSpec.reads_json (WorldSpec.readable_of_decoder hspec)).decode

/-- Settings with a biome that needs escapes, numbers at both ends of their range and one corner. -/
def thorny : Settings where
  plotSize := -2147483648
  roadWidth := 2147483647
  biome := "\"\\/ é\n\x07\x1f𝄞"
  terrain := .roads
  minPlot := some ⟨-1, 0⟩

/-- The settings of a world that is far from the defaults. -/
def thornyWorld : WorldSpec where
  area := thorny
  mode := .augmenting
  radius := -7
  modifiers := ["size=\t20", "", "\"biome\" = plains"]

/-- The same settings with a gap and a floor of their own, fitted to a region. -/
def thornyFitted : Settings :=
  let modified := (Settings.applyModifiers ["s=34", "g=5", "floor=stone:3,grass_block"]).outcome
    thorny
  ((Settings.fit 0 0 77 38).outcome modified.2).2

/-- Settings that were read, the same modified and fitted, and a world that was read. -/
theorem settings_round_trip_thorny :
    thornyFitted.Made ∧ Settings.ofText thornyFitted.text = .ok thornyFitted ∧
      WorldSpec.decoder thornyWorld.json.reading = .ok thornyWorld ∧
      decode WorldSpec.decoder thornyWorld.json.text = .ok thornyWorld := by
  have hthorny : thorny.Readable := { Settings.readable_default with }
  have hread : Settings.ofText thorny.text = .ok thorny := (Settings.reads_json hthorny).decode
  have hmade : thornyFitted.Made := ((Settings.Made.read hread).modifiedAll _).fitted _ _ _ _
  have hworld : WorldSpec.decoder thornyWorld.json.reading = .ok thornyWorld :=
    WorldSpec.reads_json hthorny
  exact ⟨hmade, settings_round_trip.1 _ hmade, hworld, settings_round_trip.2 _ _ hworld⟩

end Cadastre
