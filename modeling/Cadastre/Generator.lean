import Cadastre.Generator.Foreign
import Cadastre.Generator.Hooks
import Cadastre.Generator.Site
import Cadastre.Layout
/-!
# Cadastre.Generator

**Generators**: what a host asks for the chunks of its worlds.

Design points:

* A generator writes into the queue of the world that a chunk is asked for. Every request starts
  from an empty chunk, whatever was left in the queue.
* A replacing generator builds the area's layout and nothing else. An augmenting one lays it over
  the chunk of a foreign generator, and over an empty chunk where that one does not deliver.
* The merge states are read once per chunk, for the plots near it, before the chunk is edited.
* A generator remembers the worlds it was asked for. The first request for a world registers the
  generator with the site.
-/

namespace Cadastre

/-- Where a generator's terrain comes from. -/
inductive GeneratorMode (σ : Type)
  | replacing
  | augmenting (foreign : Foreign σ)

/-- What a generator does with a world. -/
inductive GeneratorState
  /-- Nobody has asked for a chunk of the world. -/
  | uninitialized
  | replacing
  | augmenting
  deriving DecidableEq, Repr

/-- What a request for a chunk came to. -/
inductive ChunkOutcome
  /-- A hook handled the chunk. -/
  | skipped
  /-- The layout was built, `columns` of them owned by the area. -/
  | generated (columns : Nat)
  /-- The world has no area, and the chunk is left empty. -/
  | void
  /-- The foreign generator did not deliver, and only the layout was built. -/
  | fallback (columns : Nat)
  deriving DecidableEq, Repr

/-- A generator of chunks; `σ` is the state of its surroundings. -/
structure Generator (σ : Type) where
  name : String
  mode : GeneratorMode σ
  hooks : Hooks σ := {}
  /-- The worlds that the generator was asked for. -/
  loaded : List String := []

namespace Generator

variable {κ σ : Type}

/-- A generator that builds areas only. -/
def replacing (hooks : Hooks σ := {}) : Generator σ := ⟨"plotweave", .replacing, hooks, []⟩

/-- A generator that lays areas over foreign terrain. -/
def augmenting (foreign : Foreign σ) (hooks : Hooks σ := {}) : Generator σ :=
  ⟨"plotweave+" ++ foreign.name, .augmenting foreign, hooks, []⟩

def state (g : Generator σ) (world : String) : GeneratorState :=
  if world ∈ g.loaded then
    match g.mode with
    | .replacing => .replacing
    | .augmenting _ => .augmenting
  else .uninitialized

/-- Whether the generator places structures, which only foreign terrain has. -/
def structures (g : Generator σ) : Bool :=
  match g.mode with
  | .replacing => false
  | .augmenting foreign => foreign.structures

/-- Whether the generator places decorations, which only foreign terrain has. -/
def decorations (g : Generator σ) : Bool :=
  match g.mode with
  | .replacing => false
  | .augmenting foreign => foreign.decorations

/-! ### Requests -/

/-- The merge states of the plots near a chunk. -/
def prefetch (s : Site κ σ) (a : Area) (coord : ChunkCoord) : Except Failure Merges := do
  return (s.merges.select (← a.plotsNear coord)).merges

/-- Asks a foreign generator for a chunk. It counts only if it is the chunk that was asked for. -/
def askForeign (foreign : Foreign σ) (world : String) (coord : ChunkCoord) :
    Edit (Site κ σ) (Option Chunk) := do
  let delivery ← modifyGet fun s =>
    let (delivery, host) := foreign.generate world coord s.host
    (delivery, { s with host })
  match delivery with
  | .chunk c =>
    if c.coord = coord then
      Site.addLine (.debug (foreign.name ++ " generated chunk " ++ coord.text ++ " in " ++ world))
      return some c
    else
      Site.addLine (.warning (foreign.name ++ " returned chunk " ++ c.coord.text ++ " for "
        ++ coord.text ++ " in " ++ world ++ ", ignoring it"))
      return none
  | .refusal text =>
    Site.addLine (.error (Error.message (.foreign (foreign.name ++ " failed on chunk "
      ++ coord.text ++ " in " ++ world ++ ": " ++ text))))
    return none
  | .breakdown =>
    Site.addLine (.error (Error.message (.foreign (foreign.name ++ " panicked on chunk "
      ++ coord.text ++ " in " ++ world))))
    return none

/-- Empties a chunk. -/
def resetTo (c : Chunk) : Edit (Chunk × σ) Unit := modify fun (_, s) => (c, s)

/-- Builds an area in an emptied chunk, unless a hook handles it. -/
def buildAlone (hooks : Hooks σ) (a : Area) (m : Merges) (world : String) (coord : ChunkCoord) :
    Edit (Chunk × σ) ChunkOutcome := do
  resetTo (.empty coord)
  if ← hooks.before world then return .skipped
  let columns ← (a.buildInto coord m .fresh : Edit Chunk Nat).onFirst
  let _ ← hooks.after world
  return .generated columns

/-- Builds an area over foreign terrain, or over an empty chunk where there is none. -/
def buildOver (hooks : Hooks σ) (a : Area) (m : Merges) (world : String) (coord : ChunkCoord)
    (terrain : Option Chunk) : Edit (Chunk × σ) ChunkOutcome := do
  resetTo (terrain.getD (.empty coord))
  let columns ← (a.buildInto coord m .overwrite : Edit Chunk Nat).onFirst
  let _ ← hooks.after world
  return if terrain.isSome then .generated columns else .fallback columns

/-- Makes a chunk of a world in the world's queue. -/
def build (g : Generator σ) (world : String) (coord : ChunkCoord) :
    Edit (Site κ σ) ChunkOutcome := do
  Site.onQueue world (pure ())
  match (← get).areas[world]? with
  | none =>
    Site.addLine (.warning ("No plot area for world " ++ world ++ ", chunk " ++ coord.text
      ++ " stays empty"))
    Site.onQueue world (Hosted.withChunk coord (resetTo (.empty coord)))
    return .void
  | some a =>
    let m ← prefetch (← get) a coord
    match g.mode with
    | .replacing => Site.onQueue world (Hosted.withChunk coord (buildAlone g.hooks a m world coord))
    | .augmenting foreign =>
      let terrain ← askForeign foreign world coord
      Site.onQueue world (Hosted.withChunk coord (buildOver g.hooks a m world coord terrain))

/-- Notes that a world was asked for. The first time, the generator is registered for it. -/
def load (world : String) : Edit (Generator σ × Site κ σ) Unit := fun (g, s) =>
  if world ∈ g.loaded then .ok () (g, s)
  else
    match Site.register world g.name s with
    | .ok _ s => .ok () ({ g with loaded := world :: g.loaded }, s)
    | .error e s => .error e ({ g with loaded := world :: g.loaded }, s)

/-- Answers a request for a chunk. -/
def request (world : String) (coord : ChunkCoord) : Edit (Generator σ × Site κ σ) ChunkOutcome := do
  load world
  fun (g, s) =>
    match g.build world coord s with
    | .ok outcome s => .ok outcome (g, s)
    | .error e s => .error e (g, s)

/-! ### Spawning -/

/-- Whether somebody may be put down on a column. Beyond what an area claims that is for the foreign
generator to say; otherwise every column but a wall will do. -/
def canSpawn (g : Generator σ) (s : Site κ σ) (world : String) (x z : Int32) :
    Except Failure Bool :=
  match s.areas[world]? with
  | none => .ok false
  | some a =>
    let onArea : Except Failure Bool := do
      let m ← prefetch s a (.containing x z)
      return !(← a.mergedGround m x z).isWall
    match g.mode with
    | .replacing => onArea
    | .augmenting foreign => do
      if ← a.isClaimed x z then onArea else return foreign.canSpawn world x z

/-- The height at which somebody is put down on plot ground. -/
def spawnHeight (s : Site κ σ) (world : String) : Option Nat :=
  s.areas[world]?.map Area.spawnHeight

end Generator

end Cadastre
