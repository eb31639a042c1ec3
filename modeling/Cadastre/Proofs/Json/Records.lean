import Cadastre.Proofs.Json.Rendering
/-!
# Cadastre.Proofs.Json.Records

**What decoders make of written documents.** `Decoder.Reads` says that a decoder gets a value out of
a document. There is one rule for each kind of decoder; a record that is written with all its fields
in order is read by setting one field after the other (`Decoder.reads_record`).
-/

namespace Cadastre.Json

variable {α σ : Type}

namespace Decoder

/-- Whether a decoder gets a value out of a document. -/
def Reads (decoder : Decoder α) (j : Json) (a : α) : Prop := decoder j.reading = .ok a

/-- What a decoder gets out of a document it gets out of its text. -/
theorem Reads.decode {decoder : Decoder α} {j : Json} {a : α} (h : decoder.Reads j a) :
    decode decoder j.text = .ok a :=
  (decode_text decoder j).trans h

theorem reads_int32 (n : Int32) : Decoder.int32.Reads (.int n.toInt) n := by
  have hfit : fit? n.toInt = some n := by
    rw [fit?, if_pos (Int32.fits_toInt n), Int32.ofInt_toInt]
  unfold Reads reading int32
  simp only [hfit]
  rfl

theorem reads_bool (b : Bool) : Decoder.bool.Reads (.bool b) b := rfl

theorem reads_string (s : String) : Decoder.string.Reads (.str s) s := rfl

/-- A choice is read from its name. -/
theorem reads_choice {ofName? : String → Option α} {name : String} {a : α}
    (h : ofName? name = some a) : (Decoder.choice ofName?).Reads (.str name) a := by
  unfold Reads reading choice
  simp only [h]
  rfl

theorem readings_map {json : α → Json} (as : List α) :
    readings (as.map json) = as.map fun a => (json a).reading := by
  induction as with
  | nil => rfl
  | cons a as ih => rw [List.map_cons, readings, ih, List.map_cons]

theorem reads_list {decoder : Decoder α} {json : α → Json} {as : List α}
    (h : ∀ a ∈ as, decoder.Reads (json a) a) :
    (Decoder.list decoder).Reads (.arr (as.map json)) as := by
  have hitems : (readings (as.map json)).mapM decoder = .ok as := by
    rw [readings_map]
    exact mapM_map_eq_ok h
  unfold Reads reading list
  simp only [hitems]
  rfl

end Decoder

/-! ### Records -/

/-- A field is set to what its decoder gets out of a document. -/
theorem RecordField.set_of {name : String} {decoder : Decoder α} {put : α → σ → σ} {j : Json}
    {a : α} (h : decoder.Reads j a) (s : σ) :
    (RecordField.of name decoder put).set j.reading s = .ok (put a s) := by
  show (put · s) <$> decoder j.reading = _
  rw [h]
  rfl

/-- Whether members written for the given fields, in order, set them one after the other. -/
inductive Sets : List (RecordField σ) → List (String × Json) → σ → σ → Prop
  | nil (s : σ) : Sets [] [] s s
  | cons {field : RecordField σ} {fields : List (RecordField σ)} {value : Json}
      {members : List (String × Json)} {s s' s'' : σ} (h : field.set value.reading s = .ok s')
      (hrest : Sets fields members s' s'') :
      Sets (field :: fields) ((field.name, value) :: members) s s''

/-- The name of a field finds that field, where no two fields share a name. -/
theorem find?_field {fields : List (RecordField σ)} (hnodup : (fields.map (·.name)).Nodup)
    {field : RecordField σ} (hmem : field ∈ fields) :
    fields.find? (·.name = field.name) = some field := by
  induction fields with
  | nil => exact nomatch hmem
  | cons first fields ih =>
      rw [List.map_cons, List.nodup_cons] at hnodup
      rcases List.mem_cons.mp hmem with rfl | hmem
      · exact List.find?_cons_of_pos (decide_eq_true rfl)
      · have hname : first.name ≠ field.name := fun heq =>
          hnodup.1 (heq ▸ List.mem_map_of_mem (f := (·.name)) hmem)
        rw [List.find?_cons_of_neg (by simpa using hname)]
        exact ih hnodup.2 hmem

/-- Members for the fields that are still to come set them, if none of them was there before. -/
theorem Sets.setMembers {fields rest : List (RecordField σ)} {members : List (String × Json)}
    {s s' : σ} (h : Sets rest members s s') (hnodup : (fields.map (·.name)).Nodup)
    (hrest : ∀ field ∈ rest, field ∈ fields) (seen : List String)
    (hfresh : (rest.map (·.name) ++ seen).Nodup) :
    Json.setMembers fields (memberReadings members) seen s =
      .ok ((rest.map (·.name)).reverse ++ seen, s') := by
  induction h generalizing seen with
  | nil s => rfl
  | @cons field rest value members s s' s'' hset hrest' ih =>
      have hnew : field.name ∉ seen := by
        rw [List.map_cons, List.cons_append, List.nodup_cons] at hfresh
        exact fun hmem => hfresh.1 (List.mem_append_right _ hmem)
      have hnext := ih (fun other hmem => hrest other (List.mem_cons_of_mem _ hmem))
        (field.name :: seen) (List.perm_middle.nodup_iff.mpr hfresh)
      unfold memberReadings Json.setMembers
      simp only [find?_field hnodup (hrest field List.mem_cons_self), if_neg hnew, hset]
      rw [List.map_cons, List.reverse_cons, List.append_assoc, List.singleton_append]
      exact hnext

/-- **A record written with all its fields in order** is read by setting one after the other. -/
theorem Decoder.reads_record {fields : List (RecordField σ)} {members : List (String × Json)}
    {default s : σ} (hnodup : (fields.map (·.name)).Nodup) (h : Sets fields members default s)
    (complete : Bool) : (Decoder.record fields complete default).Reads (.obj members) s := by
  have hset := h.setMembers hnodup (fun _ hmem => hmem) [] (by rwa [List.append_nil])
  unfold Reads reading record
  simp only [hset]
  show (if _ then _ else _) = _
  rw [if_pos]
  · rfl
  · refine ⟨trivial, fun _ field hmem => ?_⟩
    rw [List.append_nil, List.mem_reverse]
    exact List.mem_map_of_mem hmem

/-! ### What fields keep -/

/-- Whether a field that is set from any document leaves a property in force. -/
def RecordField.Keeps (field : RecordField σ) (P : σ → Prop) : Prop :=
  ∀ r s s', field.set r s = .ok s' → P s → P s'

theorem RecordField.keeps_of {name : String} {decoder : Decoder α} {put : α → σ → σ} {P : σ → Prop}
    (h : ∀ {r a s}, decoder r = .ok a → P s → P (put a s)) :
    (RecordField.of name decoder put).Keeps P := by
  intro r s s' hset hs
  obtain ⟨a, hdecoded, rfl⟩ := exists_of_map_eq_ok hset
  exact h hdecoded hs

section Keeps

variable {fields : List (RecordField σ)} {P : σ → Prop}

theorem setMembers_keeps (hfields : ∀ field ∈ fields, field.Keeps P)
    {members : List (Option String × Reading)} {seen seen' : List String} {s s' : σ}
    (h : setMembers fields members seen s = .ok (seen', s')) (hs : P s) : P s' := by
  induction members generalizing seen s with
  | nil =>
      cases h
      exact hs
  | cons member members ih =>
      obtain ⟨_ | key, r⟩ := member
      · cases h
      · unfold setMembers at h
        cases hfound : fields.find? (·.name = key) with
        | none =>
            simp only [hfound] at h
            exact ih h hs
        | some field =>
            simp only [hfound] at h
            split at h
            · cases h
            · obtain ⟨s₁, hset, h⟩ := exists_of_bind_eq_ok h
              exact ih h (hfields field (List.mem_of_find?_eq_some hfound) r s s₁ hset hs)

theorem setItems_keeps (hfields : ∀ field ∈ fields, field.Keeps P) {items : List Reading}
    {missing : List (RecordField σ)} {s s' : σ} (h : setItems fields items s = .ok (missing, s'))
    (hs : P s) : P s' := by
  induction fields generalizing items s with
  | nil =>
      cases items with
      | nil =>
          cases h
          exact hs
      | cons r items => cases h
  | cons field fields ih =>
      cases items with
      | nil =>
          cases h
          exact hs
      | cons r items =>
          obtain ⟨s₁, hset, h⟩ := exists_of_bind_eq_ok h
          exact ih (fun other hmem => hfields other (List.mem_cons_of_mem _ hmem)) h
            (hfields field List.mem_cons_self r s s₁ hset hs)

/-- **What holds of a record's defaults and is kept by its fields** holds of every record that is
read. -/
theorem Decoder.record_keeps (hfields : ∀ field ∈ fields, field.Keeps P) {complete : Bool}
    {default s : σ} {r : Reading} (h : Decoder.record fields complete default r = .ok s)
    (hdefault : P default) : P s := by
  unfold record at h
  cases r with
  | obj members closed =>
      obtain ⟨⟨seen, s₁⟩, hset, h⟩ := exists_of_bind_eq_ok h
      dsimp only at h
      split at h
      · cases h
        exact setMembers_keeps hfields hset hdefault
      · cases h
  | arr items closed =>
      obtain ⟨⟨missing, s₁⟩, hset, h⟩ := exists_of_bind_eq_ok h
      dsimp only at h
      split at h
      · cases h
        exact setItems_keeps hfields hset hdefault
      · cases h
  | _ => cases h

end Keeps

end Cadastre.Json
