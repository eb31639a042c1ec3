import Cadastre.Json.Token
/-!
# Cadastre.Json.Reading

A JSON text **read as far as it is well formed**.

Design points:

* A text that stops being JSON half-way still has a beginning. Its `Reading` keeps everything before
  that place: the containers open there are not `closed`, and what should have come next is `torn`.
  So a complaint about an early member of a document comes before one about the text after it.
* Nothing but the last part of an unclosed container can be torn. A decoder that skips a member need
  not look into it: if it is torn, its container is unclosed.
* The reader is a machine that takes one lexeme at a time and keeps the open containers in a list,
  so nesting has no limit.
-/

namespace Cadastre.Json

/-- What a reader makes out of a JSON text. -/
inductive Reading
  | null
  | bool (b : Bool)
  | int (n : Int)
  /-- A number that is not written as an integer. -/
  | real
  /-- A string, without a value where an escape is half a surrogate pair. -/
  | str (s : Option String)
  | arr (items : List Reading) (closed : Bool)
  | obj (members : List (Option String × Reading)) (closed : Bool)
  /-- The place where the text stops being JSON. -/
  | torn

/-- A text's first value, and whether the text is that value and nothing else. -/
structure Document where
  root : Reading
  whole : Bool

/-- A container around the place where the reader stands; its parts so far are in reverse. -/
inductive Frame
  | arr (items : List Reading)
  /-- An object and the key of the member whose value comes next. -/
  | obj (members : List (Option String × Reading)) (key : Option String)

/-- What the reader expects next. -/
inductive Stage
  | value
  /-- The first item of an array, or its end. -/
  | item
  /-- A key, or where the object has just begun its end. The members so far are in reverse. -/
  | key (members : List (Option String × Reading)) (fresh : Bool)
  | colon (members : List (Option String × Reading)) (key : Option String)
  /-- Nothing but what may follow this complete value. -/
  | after (value : Reading)

/-- The reader after a lexeme with which a value begins. -/
def beginValue (t : Token) (within : List Frame) : Option (Stage × List Frame) :=
  match t with
  | .null => some (.after .null, within)
  | .bool b => some (.after (.bool b), within)
  | .int n => some (.after (.int n), within)
  | .real => some (.after .real, within)
  | .str s => some (.after (.str s), within)
  | .openArray => some (.item, .arr [] :: within)
  | .openObject => some (.key [] true, within)
  | _ => none

/-- The reader after one more lexeme; `none` where the lexeme cannot come next. -/
def advance (t : Token) (stage : Stage) (within : List Frame) : Option (Stage × List Frame) :=
  match stage, within with
  | .value, _ => beginValue t within
  | .item, .arr items :: outer =>
    if t = .closeArray then some (.after (.arr items.reverse true), outer)
    else beginValue t within
  | .item, _ => none
  | .key members fresh, _ =>
    match t with
    | .str key => some (.colon members key, within)
    | .closeObject =>
      if fresh then some (.after (.obj members.reverse true), within) else none
    | _ => none
  | .colon members key, _ =>
    if t = .colon then some (.value, .obj members key :: within) else none
  | .after _, [] => none
  | .after value, .arr items :: outer =>
    match t with
    | .comma => some (.value, .arr (value :: items) :: outer)
    | .closeArray => some (.after (.arr (value :: items).reverse true), outer)
    | _ => none
  | .after value, .obj members key :: outer =>
    match t with
    | .comma => some (.key ((key, value) :: members) false, outer)
    | .closeObject => some (.after (.obj ((key, value) :: members).reverse true), outer)
    | _ => none

/-- The open containers around a value, none of them closed. -/
def enclose (value : Reading) : List Frame → Reading
  | [] => value
  | .arr items :: outer => enclose (.arr (value :: items).reverse false) outer
  | .obj members key :: outer => enclose (.obj ((key, value) :: members).reverse false) outer

/-- What was read when no further lexeme fits. -/
def Stage.tear : Stage → Reading
  | .value => .torn
  | .item => .torn
  | .key members _ => .obj members.reverse false
  | .colon members k => .obj ((k, .torn) :: members).reverse false
  | .after v => v

/-- The reader run over the lexemes that are left. -/
def readFrom (stage : Stage) (within : List Frame) : List Token → Document
  | [] =>
    match stage, within with
    | .after value, [] => ⟨value, true⟩
    | stage, within => ⟨enclose stage.tear within, false⟩
  | t :: ts =>
    match advance t stage within with
    | some (stage, within) => readFrom stage within ts
    | none => ⟨enclose stage.tear within, false⟩

/-- A text as a document. -/
def read (text : String) : Document := readFrom .value [] (scan text.toList)

end Cadastre.Json
