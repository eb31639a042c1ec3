import Cadastre.Log
import Cadastre.Queue
/-!
# Cadastre.Queue.Hosted

A **queue at work**: together with the lines that are logged on the way and the state of whoever
works with it, which an edit of a chunk may use and change.
-/

namespace Cadastre

/-- A queue, the lines logged so far, and the state of whoever uses the queue. -/
structure Hosted (κ σ : Type) where
  queue : Queue κ
  log : Array LogLine
  host : σ

namespace Hosted

variable {κ σ α : Type}

/-- Uses the queue. -/
def onQueue (f : Queue κ → α × Queue κ) : Edit (Hosted κ σ) α :=
  modifyGet fun h => let (a, q) := f h.queue; (a, { h with queue := q })

def addLine (line : LogLine) : Edit (Hosted κ σ) Unit :=
  modify fun h => { h with log := h.log.push line }

/-- Edits a buffer, pending or not. What an edit did before it failed stays in the buffer. -/
def editBuffer (v : View) (edit : Edit (Chunk × σ) α) : Edit (Hosted κ σ) α := fun h =>
  match edit (h.queue.content v, h.host) with
  | .ok a (c, s) => .ok a { h with queue := h.queue.store v c, host := s }
  | .error e (c, s) => .error e { h with queue := h.queue.store v c, host := s }

/-- Edits the pending buffer of a chunk. With nobody else at work a buffer that has just been found
is still pending when it is edited, so there is no second attempt. -/
def withChunk (coord : ChunkCoord) (edit : Edit (Chunk × σ) α) : Edit (Hosted κ σ) α := do
  editBuffer (← onQueue fun q => q.forChunk coord) edit

end Hosted

namespace Edit

variable {σ τ α : Type}

/-- An edit of the first of two states. -/
def onFirst (edit : Edit σ α) : Edit (σ × τ) α := fun (s, t) =>
  match edit s with
  | .ok a s => .ok a (s, t)
  | .error e s => .error e (s, t)

end Edit

end Cadastre
