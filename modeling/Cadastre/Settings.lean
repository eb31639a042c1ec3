import Cadastre.Arithmetic
import Cadastre.Bucket
/-!
# Cadastre.Settings

The **settings of an area** as a user gives them, not yet checked.
-/

namespace Cadastre

/-- How much of the ground beside the plots is left to whatever terrain is there. -/
inductive Terrain
  /-- Plots, walls and roads are all built. -/
  | nothing
  /-- Plots and walls are built, roads stay as they are. -/
  | roads
  /-- Only plots are built. -/
  | all
  deriving DecidableEq, Repr

namespace Terrain

/-- The name of a terrain mode in settings. -/
def name : Terrain → String
  | nothing => "none"
  | roads => "partial"
  | all => "all"

/-- The terrain mode with exactly this name. -/
def ofExactName? : String → Option Terrain
  | "none" => some nothing
  | "partial" => some roads
  | "all" => some all
  | _ => none

/-- The terrain mode of a name as people write it. -/
def ofName? (name : String) : Option Terrain := ofExactName? (Text.keyword name)

@[simp] theorem ofExactName?_name (t : Terrain) : ofExactName? t.name = some t := by
  cases t <;> rfl

end Terrain

/-- The settings of an area. -/
structure Settings where
  plotSize : Int32 := 32
  roadWidth : Int32 := 7
  plotHeight : Int32 := 64
  roadHeight : Int32 := 64
  wallHeight : Int32 := 65
  bedrock : Bool := true
  floor : Bucket := .single .grass
  main : Bucket := .single .dirt
  wallFilling : Bucket := .single .stone
  wallBorder : Bucket := .single .stoneSlab
  road : Bucket := .single .quartz
  biome : String := "plains"
  terrain : Terrain := .nothing
  minPlot : Option PlotId := none
  maxPlot : Option PlotId := none
  roadOffsetX : Int32 := 0
  roadOffsetZ : Int32 := 0
  deriving DecidableEq, Repr

namespace Settings

instance : Inhabited Settings := ⟨{}⟩

/-- The edge of a grid cell: a plot and the gap before it. -/
def period (s : Settings) : Except Failure Int32 := Checked.add s.plotSize s.roadWidth

end Settings

end Cadastre
