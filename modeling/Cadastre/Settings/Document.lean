import Cadastre.Json.Decode
import Cadastre.Json.Value
import Cadastre.Settings
/-!
# Cadastre.Settings.Document

Settings, and the values in them, **as JSON documents**.

A block bucket is written as its text. One that is no bucket is the only part of a document whose
own complaint is passed on.
-/

namespace Cadastre

open Json

def Direction.ofName? : String → Option Direction
  | "north" => some .north
  | "east" => some .east
  | "south" => some .south
  | "west" => some .west
  | _ => none

def Direction.json (d : Direction) : Json := .str d.name

def Direction.decoder : Decoder Direction := .choice ofName?

namespace PlotId

def json (id : PlotId) : Json := .obj [("x", .int id.x.toInt), ("z", .int id.z.toInt)]

def fields : List (RecordField PlotId) :=
  [.of "x" .int32 fun n id => { id with x := n }, .of "z" .int32 fun n id => { id with z := n }]

def decoder : Decoder PlotId := .record fields true ⟨0, 0⟩

end PlotId

namespace ChunkCoord

def json (c : ChunkCoord) : Json := .obj [("x", .int c.x.toInt), ("z", .int c.z.toInt)]

def fields : List (RecordField ChunkCoord) :=
  [.of "x" .int32 fun n c => { c with x := n }, .of "z" .int32 fun n c => { c with z := n }]

def decoder : Decoder ChunkCoord := .record fields true ⟨0, 0⟩

end ChunkCoord

def Terrain.json (t : Terrain) : Json := .str t.name

def Terrain.decoder : Decoder Terrain := .choice ofExactName?

def Bucket.json (b : Bucket) : Json := .str b.text

def Bucket.decoder : Decoder Bucket := fun r => do
  match read (← Decoder.string r) with
  | .ok bucket => pure bucket
  | .error (.text cause) => throw (.config (.entry cause))
  | .error .total => throw (.abort (.overflow .add))

namespace Settings

/-- An optional value of a document. -/
def optional {α : Type} (json : α → Json) : Option α → Json
  | none => .null
  | some a => json a

def json (s : Settings) : Json :=
  .obj
    [("plot_size", .int s.plotSize.toInt), ("road_width", .int s.roadWidth.toInt),
      ("plot_height", .int s.plotHeight.toInt), ("road_height", .int s.roadHeight.toInt),
      ("wall_height", .int s.wallHeight.toInt), ("bedrock", .bool s.bedrock),
      ("floor", s.floor.json), ("main", s.main.json), ("wall_filling", s.wallFilling.json),
      ("wall_border", s.wallBorder.json), ("road", s.road.json), ("biome", .str s.biome),
      ("terrain", s.terrain.json), ("min", optional PlotId.json s.minPlot),
      ("max", optional PlotId.json s.maxPlot), ("road_offset_x", .int s.roadOffsetX.toInt),
      ("road_offset_z", .int s.roadOffsetZ.toInt)]

/-- The fields of a settings document, in order. -/
def fields : List (RecordField Settings) :=
  [.of "plot_size" .int32 fun a s => { s with plotSize := a },
    .of "road_width" .int32 fun a s => { s with roadWidth := a },
    .of "plot_height" .int32 fun a s => { s with plotHeight := a },
    .of "road_height" .int32 fun a s => { s with roadHeight := a },
    .of "wall_height" .int32 fun a s => { s with wallHeight := a },
    .of "bedrock" .bool fun a s => { s with bedrock := a },
    .of "floor" Bucket.decoder fun a s => { s with floor := a },
    .of "main" Bucket.decoder fun a s => { s with main := a },
    .of "wall_filling" Bucket.decoder fun a s => { s with wallFilling := a },
    .of "wall_border" Bucket.decoder fun a s => { s with wallBorder := a },
    .of "road" Bucket.decoder fun a s => { s with road := a },
    .of "biome" .string fun a s => { s with biome := a },
    .of "terrain" Terrain.decoder fun a s => { s with terrain := a },
    .of "min" (.option PlotId.decoder) fun a s => { s with minPlot := a },
    .of "max" (.option PlotId.decoder) fun a s => { s with maxPlot := a },
    .of "road_offset_x" .int32 fun a s => { s with roadOffsetX := a },
    .of "road_offset_z" .int32 fun a s => { s with roadOffsetZ := a }]

/-- What a document does not mention keeps its default. -/
def decoder : Decoder Settings := .record fields false {}

/-- The settings that a text writes. -/
def ofText (text : String) : Except Failure Settings := decode decoder text

/-- The text of settings. -/
def text (s : Settings) : String := s.json.text

end Settings

end Cadastre
