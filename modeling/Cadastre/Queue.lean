import Std.Data.TreeMap
import Cadastre.Chunk
/-!
# Cadastre.Queue

The **queue of a world**: chunks that were written to and not yet handed on.

Design points:

* A chunk that is written to lives in a buffer with an identity of its own. A `View` names a buffer.
  It keeps naming the same one when that buffer is no longer pending, so a write through an old view
  may reach nobody.
* The operations that threads may interleave are the functions of this module: finding or making a
  buffer (`forChunk`), looking whether it is still pending (`isPending`), replacing its content
  (`store`), and what a flush consists of (`takePending`, `putBack`, `takeCompletions`). Everything
  larger is made of these.
* A pending chunk always has its buffer. That is part of the type.
* Completions are of any type `κ`. What running one does is decided by whoever flushes the queue.
-/

namespace Cadastre

/-- The identity of a buffer in its queue. -/
abbrev BufferId := Nat

/-- A way to write to one buffer. -/
structure View where
  coord : ChunkCoord
  buffer : BufferId
  deriving DecidableEq, Repr

/-- The pending chunks of one world and the completions that wait for them. -/
structure Queue (κ : Type) where
  world : String
  /-- Every buffer that was ever made; an identity is a place in this array. -/
  buffers : Array Chunk := #[]
  pending : Std.TreeMap ChunkCoord BufferId := ∅
  completions : List κ := []
  buffer_lt : ∀ (coord : ChunkCoord) (buffer : BufferId),
    pending[coord]? = some buffer → buffer < buffers.size := by simp

namespace Queue

variable {κ : Type}

/-- The queue of a world in which nothing is pending. -/
def new (world : String) : Queue κ := { world }

/-- The number of pending chunks. -/
def pendingCount (q : Queue κ) : Nat := q.pending.size

/-- The content of a buffer. -/
def content (q : Queue κ) (v : View) : Chunk := q.buffers.getD v.buffer (.empty v.coord)

/-- Makes a chunk pending in an empty buffer unless it is pending, and views its buffer. -/
def forChunk (q : Queue κ) (coord : ChunkCoord) : View × Queue κ :=
  match q.pending[coord]? with
  | some buffer => (⟨coord, buffer⟩, q)
  | none =>
    let buffer := q.buffers.size
    (⟨coord, buffer⟩,
      { q with
        buffers := q.buffers.push (.empty coord)
        pending := q.pending.insert coord buffer
        buffer_lt := by
          intro other id h
          rw [Array.size_push]
          rw [Std.TreeMap.getElem?_insert] at h
          split at h
          · cases h
            exact Nat.lt_succ_self _
          · exact Nat.lt_succ_of_lt (q.buffer_lt other id h) })

/-- Whether the buffer of a view is the pending one of its chunk. -/
def isPending (q : Queue κ) (v : View) : Bool := q.pending[v.coord]? == some v.buffer

/-- The queue with the content of a buffer replaced. -/
def store (q : Queue κ) (v : View) (c : Chunk) : Queue κ :=
  { q with
    buffers := q.buffers.setIfInBounds v.buffer c
    buffer_lt := by simpa using q.buffer_lt }

/-- Removes a pending chunk from the queue without handing it on. -/
def take (q : Queue κ) (coord : ChunkCoord) : Option Chunk × Queue κ :=
  match q.pending[coord]? with
  | some buffer =>
    (some (q.content ⟨coord, buffer⟩),
      { q with
        pending := q.pending.erase coord
        buffer_lt := by
          intro other id h
          rw [Std.TreeMap.getElem?_erase] at h
          split at h
          · cases h
          · exact q.buffer_lt other id h })
  | none => (none, q)

/-- Adds a completion behind those that wait. -/
def addCompletion (q : Queue κ) (completion : κ) : Queue κ :=
  { q with completions := q.completions ++ [completion] }

/-! ### Steps of a flush -/

/-- Takes all pending chunks out of the queue, in the order of their coordinates. -/
def takePending (q : Queue κ) : List View × Queue κ :=
  (q.pending.toList.map fun (coord, buffer) => ⟨coord, buffer⟩,
    { q with pending := ∅, buffer_lt := by simp })

/-- Makes a buffer that was taken pending again, unless a newer buffer of the chunk is. -/
def restore (q : Queue κ) (v : View) : Queue κ :=
  if hv : v.buffer < q.buffers.size then
    { q with
      pending := q.pending.insertIfNew v.coord v.buffer
      buffer_lt := by
        intro other id h
        rw [Std.TreeMap.getElem?_insertIfNew] at h
        split at h
        · cases h
          exact hv
        · exact q.buffer_lt other id h }
  else q

/-- Makes buffers that were taken pending again, each unless a newer buffer of its chunk is. -/
def putBack (q : Queue κ) (views : List View) : Queue κ := views.foldl restore q

/-- Takes all completions out of the queue. -/
def takeCompletions (q : Queue κ) : List κ × Queue κ :=
  (q.completions, { q with completions := [] })

end Queue

end Cadastre
