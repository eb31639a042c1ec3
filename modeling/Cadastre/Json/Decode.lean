import Cadastre.Arithmetic
import Cadastre.Json.Reading
/-!
# Cadastre.Json.Decode

**Values out of JSON documents.**

Design points:

* A decoder looks at a document from front to back and reports the first thing that is wrong. That
  is nearly always that the document has not the expected form; only a block bucket says more.
* A record is written as an object, or as an array of its fields in order. In an object the order is
  free and unknown members are skipped, but a field must not come twice. A record whose fields have
  defaults takes them for what is not there, and any other record must be complete.
* A choice from a list of names is written as its name, or as an object with that name and `null`.
-/

namespace Cadastre.Json

variable {α σ : Type}

/-- The failure of a document that has not the expected form. -/
def malformed : Failure := .config .document

/-- A decoder of values of type `α`. -/
abbrev Decoder (α : Type) := Reading → Except Failure α

/-- The value of a whole text. -/
def decode (decoder : Decoder α) (text : String) : Except Failure α := do
  let document := read text
  let a ← decoder document.root
  if document.whole then pure a else throw malformed

namespace Decoder

/-- An integer with a property, written without fraction, exponent or minus zero. -/
def integer (p : Int → Bool) : Decoder Int
  | .int n => if p n then pure n else throw malformed
  | _ => throw malformed

def int32 : Decoder Int32
  | .int n =>
    match fit? n with
    | some a => pure a
    | none => throw malformed
  | _ => throw malformed

def bool : Decoder Bool
  | .bool b => pure b
  | _ => throw malformed

def string : Decoder String
  | .str (some s) => pure s
  | _ => throw malformed

/-- A value or `null`. -/
def option (decoder : Decoder α) : Decoder (Option α)
  | .null => pure none
  | r => some <$> decoder r

def list (decoder : Decoder α) : Decoder (List α)
  | .arr items closed => do
    let as ← items.mapM decoder
    if closed then pure as else throw malformed
  | _ => throw malformed

/-- The entries of an object with free keys, in the order of the text. -/
def entries (decoder : Decoder α) : Decoder (List (String × α))
  | .obj members closed => do
    let as ← members.mapM fun
      | (some key, r) => (key, ·) <$> decoder r
      | (none, _) => throw malformed
    if closed then pure as else throw malformed
  | _ => throw malformed

/-- A choice by name. -/
def choice (ofName? : String → Option α) : Decoder α
  | .str (some name) | .obj [(some name, .null)] true =>
    match ofName? name with
    | some a => pure a
    | none => throw malformed
  | _ => throw malformed

end Decoder

/-! ### Records -/

/-- A field of a record: its name, and how it is set from a document. -/
structure RecordField (σ : Type) where
  name : String
  set : Reading → σ → Except Failure σ

/-- A field that a decoder reads. -/
def RecordField.of (name : String) (decoder : Decoder α) (put : α → σ → σ) : RecordField σ :=
  ⟨name, fun r s => (put · s) <$> decoder r⟩

/-- The fields of a record from the members of an object, and the names of those that were there. -/
def setMembers (fields : List (RecordField σ)) :
    List (Option String × Reading) → List String → σ → Except Failure (List String × σ)
  | [], seen, s => pure (seen, s)
  | (none, _) :: _, _, _ => throw malformed
  | (some key, r) :: members, seen, s =>
    match fields.find? (·.name = key) with
    | none => setMembers fields members seen s
    | some field =>
      if key ∈ seen then throw malformed
      else do setMembers fields members (key :: seen) (← field.set r s)

/-- The fields of a record from the items of an array, and the fields that were not there. -/
def setItems : List (RecordField σ) → List Reading → σ → Except Failure (List (RecordField σ) × σ)
  | fields, [], s => pure (fields, s)
  | [], _ :: _, _ => throw malformed
  | field :: fields, r :: items, s => do setItems fields items (← field.set r s)

/-- A record with the given fields, on top of a record that holds the defaults. Where `complete` is
set every field must be there. -/
def Decoder.record (fields : List (RecordField σ)) (complete : Bool) (default : σ) : Decoder σ
  | .obj members closed => do
    let (seen, s) ← setMembers fields members [] default
    if closed ∧ (complete → ∀ field ∈ fields, field.name ∈ seen) then pure s else throw malformed
  | .arr items closed => do
    let (missing, s) ← setItems fields items default
    if closed ∧ (complete → missing.length = 0) then pure s else throw malformed
  | _ => throw malformed

end Cadastre.Json
