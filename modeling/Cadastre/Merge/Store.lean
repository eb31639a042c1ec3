import Std.Data.TreeMap
import Cadastre.Merge
/-!
# Cadastre.Merge.Store

A **store of merge states**, and the part of it that one chunk can depend on.
-/

namespace Cadastre

/-- The merge states of the plots that were ever merged or set. -/
structure MergeStore where
  states : Std.TreeMap PlotId MergeState := ∅

namespace MergeStore

/-- The state of a plot. A plot without an entry is merged with no neighbour. -/
def state (s : MergeStore) (id : PlotId) : MergeState := s.states.getD id .none

/-- The states of all plots. -/
def merges (s : MergeStore) : Merges := s.state

/-- The store with the state of a plot set. -/
def set (s : MergeStore) (id : PlotId) (state : MergeState) : MergeStore :=
  ⟨s.states.insert id state⟩

/-- The direction from one plot to another next to it. -/
def direction? (a b : PlotId) : Option Direction := Direction.all.find? fun d => a.neighbor d = b

/-- The store with two plots merged towards each other, if they are neighbours. -/
def merge? (s : MergeStore) (a b : PlotId) : Option MergeStore :=
  (direction? a b).map fun d =>
    (s.set a ((s.state a).insert d)).set b ((s.state b).insert d.opposite)

/-- The plots that have an entry, in order. -/
def plots (s : MergeStore) : List PlotId := s.states.keys

/-- The part of the store that says which of some plots are merged at all. -/
def select (s : MergeStore) (ids : List PlotId) : MergeStore :=
  ids.foldl (fun part id => if (s.state id).any then part.set id (s.state id) else part) {}

end MergeStore

/-- The numbers from one to another, both included; none where they are in the wrong order. -/
def cellsBetween (first last : Int32) : List Int32 :=
  (List.range (last.toInt - first.toInt + 1).toNat).map fun i => first + Int32.ofNat i

/-- The plots whose merge states a chunk can depend on: those of the cells that the chunk touches
and of the next cell on either axis. -/
def Area.plotsNear (a : Area) (c : ChunkCoord) : Except Failure (List PlotId) := do
  let g ← a.grid
  let lastX ← Checked.add (g.bandX (c.minX + 15)).cell 1
  let xs := cellsBetween (g.bandX c.minX).cell lastX
  if xs.isEmpty then return []
  let lastZ ← Checked.add (g.bandZ (c.minZ + 15)).cell 1
  let zs := cellsBetween (g.bandZ c.minZ).cell lastZ
  return xs.flatMap fun x => zs.map fun z => ⟨x, z⟩

end Cadastre
