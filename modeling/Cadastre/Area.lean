import Cadastre.Settings
/-!
# Cadastre.Area

An **area**: the settings of one world's plots after they were checked.

Design points:

* What the check established is part of the type: sizes that make sense, heights inside the world,
  bounds the right way round.
* The check does not add the plot size and the road width up. Their sum may be too large for the
  world, and then the area has no grid (`Area.grid`).
-/

namespace Cadastre

/-- The number of block layers of the world. -/
def worldHeight : Nat := 256

/-- A height of an area's layers: a layer of the world above the lowest. -/
abbrev Height := { n : Nat // 1 ≤ n ∧ n < worldHeight }

/-- A rectangle of plots, both corners included. -/
structure Bounds where
  min : PlotId
  max : PlotId
  x_le : min.x ≤ max.x
  z_le : min.z ≤ max.z
  deriving DecidableEq

/-- Whether a plot lies in the rectangle. -/
def Bounds.contains (b : Bounds) (id : PlotId) : Bool :=
  b.min.x ≤ id.x && id.x ≤ b.max.x && b.min.z ≤ id.z && id.z ≤ b.max.z

/-- The checked layout of one world's plots. -/
structure Area where
  world : String
  plotSize : Int32
  roadWidth : Int32
  plotHeight : Height
  roadHeight : Height
  wallHeight : Height
  bedrock : Bool
  floor : Bucket
  main : Bucket
  wallFilling : Bucket
  wallBorder : Bucket
  road : Bucket
  biome : Int32
  terrain : Terrain
  bounds : Option Bounds
  roadOffsetX : Int32
  roadOffsetZ : Int32
  plotSize_pos : 0 < plotSize.toInt
  roadWidth_nonneg : 0 ≤ roadWidth.toInt
  deriving DecidableEq

namespace Area

/-- A height that lies above the lowest layer and inside the world. -/
def checkHeight (kind : HeightKind) (n : Int32) : Except Failure Height :=
  if h : 1 ≤ n.toInt.toNat ∧ n.toInt.toNat < worldHeight then .ok ⟨n.toInt.toNat, h⟩
  else .error (.config (.height kind n))

/-- The bounds that two optional corners give. -/
def checkBounds : Option PlotId → Option PlotId → Except Failure (Option Bounds)
  | none, none => .ok none
  | some min, some max =>
    if h : min.x ≤ max.x ∧ min.z ≤ max.z then .ok (some ⟨min, max, h.1, h.2⟩)
    else .error (.config (.boundsOrder min max))
  | _, _ => .error (.config .boundsHalf)

/-- The area of a world with the given settings, if they can be used. -/
def ofSettings (world : String) (s : Settings) : Except Failure Area := do
  if size : 0 < s.plotSize.toInt then
    if width : 0 ≤ s.roadWidth.toInt then
      let plotHeight ← checkHeight .plot s.plotHeight
      let roadHeight ← checkHeight .road s.roadHeight
      let wallHeight ← checkHeight .wall s.wallHeight
      let biome ← match Biome.id? s.biome with
        | some biome => pure biome
        | none => throw (.config (.biome s.biome))
      let bounds ← checkBounds s.minPlot s.maxPlot
      return {
        world, plotHeight, roadHeight, wallHeight, biome, bounds,
        plotSize := s.plotSize
        roadWidth := s.roadWidth
        bedrock := s.bedrock
        floor := s.floor
        main := s.main
        wallFilling := s.wallFilling
        wallBorder := s.wallBorder
        road := s.road
        terrain := s.terrain
        roadOffsetX := s.roadOffsetX
        roadOffsetZ := s.roadOffsetZ
        plotSize_pos := size
        roadWidth_nonneg := width }
    else throw (.config (.roadWidth s.roadWidth))
  else throw (.config (.plotSize s.plotSize))

/-- An area has the name it is given, and the measures, the place and the bounds of its settings. -/
theorem ofSettings_layout {world : String} {s : Settings} {a : Area}
    (h : ofSettings world s = .ok a) :
    (a.world = world ∧ a.plotSize = s.plotSize ∧ a.roadWidth = s.roadWidth) ∧
      (a.roadOffsetX = s.roadOffsetX ∧ a.roadOffsetZ = s.roadOffsetZ) ∧
      checkBounds s.minPlot s.maxPlot = .ok a.bounds := by
  unfold ofSettings at h
  split at h
  case isFalse => cases h
  case isTrue hsize =>
      split at h
      case isFalse => cases h
      case isTrue hwidth =>
          obtain ⟨plotHeight, -, h⟩ := exists_of_bind_eq_ok h
          obtain ⟨roadHeight, -, h⟩ := exists_of_bind_eq_ok h
          obtain ⟨wallHeight, -, h⟩ := exists_of_bind_eq_ok h
          cases hbiome : Biome.id? s.biome with
          | none => simp only [hbiome] at h; cases h
          | some biome =>
              simp only [hbiome] at h
              obtain ⟨_, -, h⟩ := exists_of_bind_eq_ok h
              obtain ⟨bounds, hbounds, h⟩ := exists_of_bind_eq_ok h
              cases h
              exact ⟨⟨rfl, rfl, rfl⟩, ⟨rfl, rfl⟩, hbounds⟩

/-- An area has the name it is given and the measures of its settings. -/
theorem ofSettings_measures {world : String} {s : Settings} {a : Area}
    (h : ofSettings world s = .ok a) :
    a.world = world ∧ a.plotSize = s.plotSize ∧ a.roadWidth = s.roadWidth :=
  (ofSettings_layout h).1

/-- The area of the default settings. -/
def standard : Area where
  world := "plotworld"
  plotSize := 32
  roadWidth := 7
  plotHeight := ⟨64, by decide⟩
  roadHeight := ⟨64, by decide⟩
  wallHeight := ⟨65, by decide⟩
  bedrock := true
  floor := .single .grass
  main := .single .dirt
  wallFilling := .single .stone
  wallBorder := .single .stoneSlab
  road := .single .quartz
  biome := 1
  terrain := .nothing
  bounds := none
  roadOffsetX := 0
  roadOffsetZ := 0
  plotSize_pos := by decide
  roadWidth_nonneg := by decide

theorem ofSettings_default : ofSettings "plotworld" {} = .ok standard := rfl

/-- The edge of a grid cell: a plot and the gap before it. -/
def period (a : Area) : Except Failure Int32 := Checked.add a.plotSize a.roadWidth

/-- Whether a plot lies in the area's bounds. An area without bounds holds every plot. -/
def contains (a : Area) (id : PlotId) : Bool :=
  match a.bounds with
  | none => true
  | some bounds => bounds.contains id

/-- The height at which somebody is put down on plot ground. -/
def spawnHeight (a : Area) : Nat := a.plotHeight + 1

end Area

end Cadastre
