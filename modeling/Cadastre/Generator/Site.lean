import Cadastre.Merge.Store
import Cadastre.Queue.Flush
/-!
# Cadastre.Generator.Site

A **site**: everything that generators share. It knows the area of each world, which generator
serves a world, who is merged, and the queue of each world.
-/

namespace Cadastre

/-- What generators share; `σ` is the state of their surroundings. -/
structure Site (κ σ : Type) where
  areas : Std.TreeMap String Area := ∅
  /-- The generator that asked first for a chunk of a world. -/
  registered : Std.TreeMap String String := ∅
  merges : MergeStore := {}
  queues : Std.TreeMap String (Queue κ) := ∅
  log : Array LogLine := #[]
  host : σ

namespace Site

variable {κ σ α : Type}

/-- The worlds that have a queue, in order. -/
def worlds (s : Site κ σ) : List String := s.queues.keys

/-- The queue of a world, a new one where there is none. -/
def queue (s : Site κ σ) (world : String) : Queue κ := s.queues.getD world (.new world)

/-- Works with the queue of a world, which is made where there is none. -/
def onQueue (world : String) (edit : Edit (Hosted κ σ) α) : Edit (Site κ σ) α := fun s =>
  let back (h : Hosted κ σ) : Site κ σ :=
    { s with queues := s.queues.insert world h.queue, log := h.log, host := h.host }
  match edit ⟨s.queue world, s.log, s.host⟩ with
  | .ok a h => .ok a (back h)
  | .error e h => .error e (back h)

def addLine (line : LogLine) : Edit (Site κ σ) Unit :=
  modify fun s => { s with log := s.log.push line }

/-- Gives a world its area. -/
def putArea (s : Site κ σ) (a : Area) : Site κ σ := { s with areas := s.areas.insert a.world a }

/-- Registers the generator of a world. Only the first one counts. -/
def register (world generator : String) : Edit (Site κ σ) Unit := do
  if (← get).registered.contains world then return
  modify fun s => { s with registered := s.registered.insert world generator }
  addLine (.info ("Loaded world " ++ world ++ " with generator " ++ generator))

/-- Flushes the queues of some worlds in turn and counts the chunks handed on. A refusal ends the
round. -/
def flushWorlds (sink : Sink κ σ) (worlds : List String) : Edit (Site κ σ) Nat :=
  worlds.foldlM (fun count world => do
    return count + (← onQueue world sink.flush).committed) 0

/-- Flushes the queues of all worlds, in the order of their names. -/
def flushAll (sink : Sink κ σ) : Edit (Site κ σ) Nat := do flushWorlds sink (← get).worlds

end Site

end Cadastre
