import Std.Data.TreeMap
import Cadastre.Area
import Cadastre.Settings.Document
import Cadastre.Settings.Modifier
/-!
# Cadastre.Server.Config

The **configuration of a server**: its worlds, and how each is made.
-/

namespace Cadastre

open Json

/-- How the chunks of a world are made. -/
inductive WorldMode
  | replacing
  /-- Plots are laid over flat ground. -/
  | augmenting
  deriving DecidableEq, Repr

namespace WorldMode

def name : WorldMode → String
  | replacing => "replacing"
  | augmenting => "augmenting"

def ofName? : String → Option WorldMode
  | "replacing" => some replacing
  | "augmenting" => some augmenting
  | _ => none

def json (m : WorldMode) : Json := .str m.name

def decoder : Decoder WorldMode := .choice ofName?

@[simp] theorem ofName?_name (m : WorldMode) : ofName? m.name = some m := by
  cases m <;> rfl

end WorldMode

/-- The settings of one world. -/
structure WorldSpec where
  area : Settings := {}
  mode : WorldMode := .replacing
  /-- How many chunks are made in every direction around the chunk in the middle. -/
  radius : Int32 := 4
  /-- Assignments that change the settings of the area. -/
  modifiers : List String := []
  /-- The height of the flat ground. -/
  foreignHeight : Int32 := 60
  deriving DecidableEq, Repr

namespace WorldSpec

instance : Inhabited WorldSpec := ⟨{}⟩

/-- The area of a world: its settings changed by the modifiers, and checked. -/
def buildArea (spec : WorldSpec) (world : String) : Except Failure Area := do
  if spec.radius.toInt < 0 then throw (.config (.radius world))
  match (Settings.applyModifiers spec.modifiers).outcome spec.area with
  | (.ok _, settings) => Area.ofSettings world settings
  | (.error e, _) => throw e

/-- The number of chunks in a square of a radius. A radius below zero counts as none. -/
def chunkCount (spec : WorldSpec) : Except Failure Nat := do
  let side ← Checked.add (← Checked.mul (max spec.radius 0) 2) 1
  return side.toInt.toNat * side.toInt.toNat

/-- The numbers from minus a radius to the radius. -/
def steps (radius : Int32) : List Int32 :=
  (List.range (2 * radius.toInt.toNat + 1)).map fun (i : Nat) => Int32.ofInt (i - radius.toInt)

/-- The chunks of a world, column by column. -/
def chunks (spec : WorldSpec) : List ChunkCoord :=
  (steps spec.radius).flatMap fun x => (steps spec.radius).map fun z => ⟨x, z⟩

def json (spec : WorldSpec) : Json :=
  .obj
    [("area", spec.area.json), ("mode", spec.mode.json), ("radius", .int spec.radius.toInt),
      ("modifiers", .arr (spec.modifiers.map .str)),
      ("foreign_height", .int spec.foreignHeight.toInt)]

/-- The fields of a world's settings in a document, in order. -/
def fields : List (RecordField WorldSpec) :=
  [.of "area" Settings.decoder fun a s => { s with area := a },
    .of "mode" WorldMode.decoder fun a s => { s with mode := a },
    .of "radius" .int32 fun a s => { s with radius := a },
    .of "modifiers" (.list .string) fun a s => { s with modifiers := a },
    .of "foreign_height" .int32 fun a s => { s with foreignHeight := a }]

/-- What a document does not mention keeps its default. -/
def decoder : Decoder WorldSpec := .record fields false {}

end WorldSpec

/-- The configuration of a server. Its worlds are in the order of their names. -/
structure ServerConfig where
  /-- Milliseconds between two rounds of flushing. -/
  flushInterval : Nat := 50
  worlds : Std.TreeMap String WorldSpec := .ofList [("plotworld", ({} : WorldSpec))]

namespace ServerConfig

instance : Inhabited ServerConfig := ⟨{}⟩

/-- The file that is read when none is named. -/
def defaultPath : String := "plotweave.json"

/-- The greatest interval that a document may give. -/
def maxInterval : Int := 18446744073709551615

def json (config : ServerConfig) : Json :=
  .obj
    [("flush_interval_ms", .int config.flushInterval),
      ("worlds", .obj (config.worlds.toList.map fun (world, spec) => (world, spec.json)))]

def text (config : ServerConfig) : String := config.json.text

/-- The fields of a server's configuration in a document, in order. Of two entries for one world the
later one counts. -/
def fields : List (RecordField ServerConfig) :=
  [.of "flush_interval_ms" (.integer fun n => 0 ≤ n && n ≤ maxInterval)
      fun a s => { s with flushInterval := a.toNat },
    .of "worlds" (.entries WorldSpec.decoder)
      fun a s => { s with worlds := Std.TreeMap.ofList a }]

/-- What a document does not mention keeps its default. -/
def decoder : Decoder ServerConfig := .record fields false {}

/-- The configuration that a text writes. Rounds of flushing must have time between them. -/
def ofText (text : String) : Except Failure ServerConfig := do
  let config ← decode decoder text
  if config.flushInterval = 0 then throw (.config .flushInterval)
  return config

/-- What is said of a file that cannot be read, and of one that is no text. -/
def noFile : Failure := .error (.io "no such file")
def noText : Failure := .error (.io "the file is not UTF-8 text")

/-- The configuration in the bytes of a file, if there is a file. -/
def ofFile : Option ByteArray → Except Failure ServerConfig
  | none => throw noFile
  | some bytes =>
    match String.fromUTF8? bytes with
    | some text => ofText text
    | none => throw noText

end ServerConfig

end Cadastre
