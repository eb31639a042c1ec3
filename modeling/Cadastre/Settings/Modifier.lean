import Cadastre.Settings
/-!
# Cadastre.Settings.Modifier

**Modifiers**: short assignments such as `size=20` that change settings one at a time.

Design points:

* A modifier is read completely before it changes anything, so one that is refused leaves the
  settings alone.
* The height modifier sets three heights, the wall one block above the others. Where there is no
  such number the first two are set already when the third is not.
-/

namespace Cadastre

/-- One change of settings. -/
inductive Modifier
  | plotSize (size : Int32)
  | roadWidth (width : Int32)
  | height (height : Int32)
  | floor (bucket : Bucket)
  | main (bucket : Bucket)
  | wallFilling (bucket : Bucket)
  | wallBorder (bucket : Bucket)
  | road (bucket : Bucket)
  | terrain (terrain : Terrain)
  | bedrock (present : Bool)
  | biome (name : String)
  deriving DecidableEq, Repr

namespace Modifier

/-- The number that a modifier's value writes, blanks around it aside. -/
def parseNumber (key value : String) : Except Failure Int32 :=
  match (Text.Numeral.int? (Text.trimList value.toList)).bind fit? with
  | some n => .ok n
  | none => .error (.config (.number key value))

def parseTerrain (value : String) : Except Failure Terrain :=
  match Terrain.ofName? value with
  | some t => .ok t
  | none => .error (.config (.terrain value))

def parseBedrock (value : String) : Except Failure Bool :=
  match Text.trim value with
  | "true" => .ok true
  | "false" => .ok false
  | _ => .error (.config (.bedrock value))

/-- A biome's name. It must be known as it is written; the blanks around it are then dropped. -/
def parseBiome (value : String) : Except Failure String :=
  if (Biome.id? value).isSome then .ok (Text.trim value) else .error (.config (.biome value))

/-- The modifier with a key and a value. -/
def parse (key value : String) : Except Failure Modifier :=
  match Text.keyword key with
  | "s" | "size" => plotSize <$> parseNumber key value
  | "g" | "gap" => roadWidth <$> parseNumber key value
  | "h" | "height" => height <$> parseNumber key value
  | "f" | "floor" => floor <$> Bucket.parse value
  | "m" | "main" => main <$> Bucket.parse value
  | "w" | "wall" => wallFilling <$> Bucket.parse value
  | "b" | "border" => wallBorder <$> Bucket.parse value
  | "road" => road <$> Bucket.parse value
  | "terrain" => terrain <$> parseTerrain value
  | "bedrock" => bedrock <$> parseBedrock value
  | "biome" => biome <$> parseBiome value
  | other => .error (.config (.modifier other))

/-- The key and the value of an assignment, cut at its first equals sign. -/
def parseAssignment (text : String) : Except Failure (String × String) :=
  match Text.cutFirst? '=' text.toList with
  | some (key, value) => .ok (String.ofList key, String.ofList value)
  | none => .error (.config (.assignment text))

/-- The change that a modifier makes. -/
def apply : Modifier → Edit Settings Unit
  | plotSize n => modify fun s => { s with plotSize := n }
  | roadWidth n => modify fun s => { s with roadWidth := n }
  | height n => do
    modify fun s => { s with plotHeight := n, roadHeight := n }
    let wall ← Checked.add n 1
    modify fun s => { s with wallHeight := wall }
  | floor b => modify fun s => { s with floor := b }
  | main b => modify fun s => { s with main := b }
  | wallFilling b => modify fun s => { s with wallFilling := b }
  | wallBorder b => modify fun s => { s with wallBorder := b }
  | road b => modify fun s => { s with road := b }
  | terrain t => modify fun s => { s with terrain := t }
  | bedrock present => modify fun s => { s with bedrock := present }
  | biome name => modify fun s => { s with biome := name }

end Modifier

namespace Settings

/-- Applies the modifier with a key and a value. -/
def applyModifier (key value : String) : Edit Settings Unit := do
  (← Modifier.parse key value).apply

/-- Applies assignments in order. One that fails leaves those before it in force. -/
def applyModifiers (assignments : List String) : Edit Settings Unit :=
  assignments.forM fun text => do
    let (key, value) ← Modifier.parseAssignment text
    applyModifier key value

end Settings

end Cadastre
