import Cadastre.Position
/-!
# Cadastre.Failure

**Why an operation does not come to its end.**

Design points:

* An operation ends early in one of two ways. An `Error` is a refusal that is reported to the caller
  in words. An `Abort` cuts the operation off at the point it had reached: a number left the range
  of its kind, a position lay outside the storage, or code beyond the library gave up.
* An error is a cause, not a text. The wording stands in one place, `Error.message`.
-/

namespace Cadastre

/-! ### Aborts -/

/-- The operation whose exact result left the range. -/
inductive Overflow
  | add
  | sub
  | mul
  | neg
  deriving DecidableEq, Repr

/-- What cut an operation off. -/
inductive Abort
  /-- The exact result of an operation on numbers of one kind is no number of that kind. -/
  | overflow (op : Overflow)
  /-- A position beyond a storage of `size` items. -/
  | outside (size index : Nat)
  /-- Code beyond the library gave up, in its own words. -/
  | raised (text : String)
  deriving DecidableEq, Repr

/-- The report of an abort. -/
def Abort.message : Abort → String
  | overflow .add => "attempt to add with overflow"
  | overflow .sub => "attempt to subtract with overflow"
  | overflow .mul => "attempt to multiply with overflow"
  | overflow .neg => "attempt to negate with overflow"
  | outside size index =>
    "index out of bounds: the len is " ++ numeral size ++ " but the index is " ++ numeral index
  | raised text => text

/-! ### Errors -/

/-- What is wrong with the text of a block bucket. -/
inductive BucketError
  /-- The digits after the last colon write no 32-bit weight. -/
  | weight (part : String)
  | zeroWeight (name : String)
  | unknownBlock (name : String)
  /-- No part of the text names a block. -/
  | empty (text : String)
  deriving DecidableEq, Repr

def BucketError.message : BucketError → String
  | weight part => "invalid weight in '" ++ part ++ "'"
  | zeroWeight name => "block '" ++ name ++ "' has zero weight"
  | unknownBlock name => "unknown block '" ++ name ++ "'"
  | empty text => "empty block bucket '" ++ text ++ "'"

/-- One of the three heights of an area. -/
inductive HeightKind
  | plot
  | road
  | wall
  deriving DecidableEq, Repr

/-- The setting that holds a height. -/
def HeightKind.setting : HeightKind → String
  | plot => "plot_height"
  | road => "road_height"
  | wall => "wall_height"

/-- What is wrong with the settings of an area, a world or a server. -/
inductive ConfigError
  | bucket (cause : BucketError)
  /-- The value of a modifier that takes a number writes none. -/
  | number (key value : String)
  | terrain (value : String)
  | bedrock (value : String)
  | biome (name : String)
  | modifier (key : String)
  /-- A modifier without an equals sign. -/
  | assignment (text : String)
  | plotSize (size : Int32)
  | roadWidth (width : Int32)
  | height (kind : HeightKind) (height : Int32)
  /-- The bounds are the wrong way round on some axis. -/
  | boundsOrder (min max : PlotId)
  /-- Only one of the two bounds is set. -/
  | boundsHalf
  | radius (world : String)
  | flushInterval
  /-- The text is no document of the expected form. -/
  | document
  /-- A block bucket inside a document is no bucket. -/
  | entry (cause : BucketError)
  /-- A complaint in the words of whoever raises it. -/
  | stated (text : String)
  deriving DecidableEq, Repr

/-- How a complaint about settings begins. -/
def ConfigError.heading : String := "Configuration error: "

def ConfigError.message : ConfigError → String
  | bucket cause => cause.message
  | number key value => key ++ " expects a number, got '" ++ value ++ "'"
  | terrain value => value ++ " is not a valid terrain"
  | bedrock value => "bedrock expects true/false, got '" ++ value ++ "'"
  | biome name => "unknown biome '" ++ name ++ "'"
  | modifier key => "unknown area modifier '" ++ key ++ "'"
  | assignment text => "expected <modifier>=<value>, got '" ++ text ++ "'"
  | plotSize size => "plot_size must be positive, got " ++ numeral size.toInt
  | roadWidth width => "road_width must not be negative, got " ++ numeral width.toInt
  | height kind n => kind.setting ++ " must be within 1..=255, got " ++ numeral n.toInt
  | boundsOrder min max => "min plot " ++ min.text ++ " is not below max plot " ++ max.text
  | boundsHalf => "min and max must be given together"
  | radius world => "radius of world " ++ world ++ " must not be negative"
  | flushInterval => "flush_interval_ms must be positive"
  | document => "malformed document"
  | entry cause => heading ++ cause.message
  | stated text => text

/-- A refusal that the caller is told about. -/
inductive Error
  /-- The surroundings failed: a file, or a request that was cut off. -/
  | io (text : String)
  | configuration (cause : ConfigError)
  /-- A write outside the chunk it was meant for. -/
  | misuse (x y z : Int)
  /-- A foreign generator did not deliver. -/
  | foreign (text : String)
  /-- The receiver of finished chunks refused one. -/
  | sink (text : String)
  deriving DecidableEq, Repr

namespace Error

/-- The report of an error. -/
def message : Error → String
  | io text => "IO error: " ++ text
  | configuration cause => ConfigError.heading ++ cause.message
  | misuse x y z =>
    "Buffer misuse: local position (" ++ numeral x ++ ", " ++ numeral y ++ ", " ++ numeral z
      ++ ") is outside the chunk"
  | foreign text => "Foreign generator error: " ++ text
  | sink text => "Sink error: " ++ text

/-- What the surroundings said, where an error only passes it on. -/
def source : Error → Option String
  | io text => some text
  | _ => none

end Error

/-- An operation's early end: a refusal or a cut. -/
inductive Failure
  | error (cause : Error)
  | abort (cause : Abort)
  deriving DecidableEq, Repr

/-- The failure of settings. -/
def Failure.config (cause : ConfigError) : Failure := .error (.configuration cause)

def Failure.message : Failure → String
  | error cause => cause.message
  | abort cause => cause.message

/-- What succeeds in two steps succeeds in each of them. -/
theorem exists_of_bind_eq_ok {α β ε : Type} {x : Except ε α} {f : α → Except ε β} {b : β}
    (h : x >>= f = .ok b) : ∃ a, x = .ok a ∧ f a = .ok b := by
  cases x with
  | ok a => exact ⟨a, rfl, h⟩
  | error e => cases h

theorem exists_of_map_eq_ok {α β ε : Type} {x : Except ε α} {f : α → β} {b : β}
    (h : f <$> x = .ok b) : ∃ a, x = .ok a ∧ f a = b := by
  cases x with
  | ok a => exact ⟨a, rfl, Except.ok.inj h⟩
  | error e => cases h

/-- What fails in two steps of which the second cannot fails in the first. -/
theorem eq_error_of_map_eq_error {α β ε : Type} {x : Except ε α} {f : α → β} {e : ε}
    (h : f <$> x = .error e) : x = .error e := by
  cases x with
  | ok a => cases h
  | error e' => rw [Except.error.inj h]

/-- What each element is made back into, a list of them is. -/
theorem mapM_map_eq_ok {α β ε : Type} {f : β → Except ε α} {g : α → β} {as : List α}
    (h : ∀ a ∈ as, f (g a) = .ok a) : (as.map g).mapM f = .ok as := by
  induction as with
  | nil => rfl
  | cons a as ih =>
    rw [List.map_cons, List.mapM_cons, h a List.mem_cons_self,
      ih fun a' hmem => h a' (List.mem_cons_of_mem _ hmem)]
    rfl

/-- What a list was made into was made of its elements. -/
theorem exists_of_mapM_eq_ok {α β ε : Type} {f : β → Except ε α} {bs : List β} {as : List α}
    (h : bs.mapM f = .ok as) {a : α} (ha : a ∈ as) : ∃ b ∈ bs, f b = .ok a := by
  induction bs generalizing as with
  | nil =>
    cases h
    cases ha
  | cons b bs ih =>
    rw [List.mapM_cons] at h
    obtain ⟨a', hb, h⟩ := exists_of_bind_eq_ok h
    obtain ⟨as', hbs, h⟩ := exists_of_bind_eq_ok h
    cases h
    rcases List.mem_cons.mp ha with rfl | ha
    · exact ⟨b, List.mem_cons_self, hb⟩
    · obtain ⟨b', hmem, hb'⟩ := ih hbs ha
      exact ⟨b', List.mem_cons_of_mem _ hmem, hb'⟩

/-! ### Edits -/

/-- An operation that changes a state of type `σ` as it goes and may fail. A failure keeps the state
that was reached, so nothing done before it is undone. -/
abbrev Edit (σ : Type) := EStateM Failure σ

namespace Edit

variable {σ α : Type}

/-- The answer of an edit and the state it leaves, whichever way it ended. -/
def outcome (edit : Edit σ α) (s : σ) : Except Failure α × σ :=
  match edit s with
  | .ok a s => (.ok a, s)
  | .error e s => (.error e, s)

/-- An edit from its answer and the state it leaves. -/
def ofOutcome (f : σ → Except Failure α × σ) : Edit σ α := fun s =>
  match f s with
  | (.ok a, s) => .ok a s
  | (.error e, s) => .error e s

/-- A computation that may fail, as an edit that leaves the state alone. -/
def lift : Except Failure α → Edit σ α
  | .ok a => pure a
  | .error e => throw e

instance : MonadLift (Except Failure) (Edit σ) := ⟨lift⟩

end Edit

end Cadastre
