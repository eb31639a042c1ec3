import Cadastre.Queue.Hosted
/-!
# Cadastre.Queue.Flush

**Flushing**: handing the pending chunks of a queue to a receiver, then running the completions.

Design points:

* The receiver and the completions may use the queue while the flush runs; both are edits of the
  queue and of a state of their own.
* Chunks are handed over in the order of their coordinates, each with the content it has at that
  moment. If the receiver refuses one, it and those after it become pending again and no completion
  runs. If the receiver or a completion is cut off, nothing is put back.
-/

namespace Cadastre

/-- Who receives finished chunks and runs completions. -/
structure Sink (κ σ : Type) where
  /-- Takes over a chunk of a world, or refuses it. -/
  commit : String → Chunk → Edit (Hosted κ σ) Unit
  complete : κ → Edit (Hosted κ σ) Unit

/-- What a flush did. -/
structure FlushReport where
  committed : Nat
  completed : Nat
  deriving DecidableEq, Repr

/-- The line that reports a flush, unless it had nothing to do. -/
def FlushReport.line? (r : FlushReport) (world : String) : Option LogLine :=
  if 0 < r.committed ∨ 0 < r.completed then
    some (.debug ("Flushed " ++ numeral r.committed ++ " chunk(s) and " ++ numeral r.completed
      ++ " callback(s) for world " ++ world))
  else none

namespace Sink

variable {κ σ : Type} (sink : Sink κ σ)

/-- Hands taken chunks over one by one. At a refusal the rest is put back. -/
def commitAll : List View → Edit (Hosted κ σ) Unit
  | [] => pure ()
  | v :: rest => fun h =>
    match sink.commit h.queue.world (h.queue.content v) h with
    | .ok _ h => commitAll rest h
    | .error (.error e) h => .error (.error e) { h with queue := h.queue.putBack (v :: rest) }
    | .error (.abort a) h => .error (.abort a) h

/-- Flushes a queue. -/
def flush : Edit (Hosted κ σ) FlushReport := do
  let views ← Hosted.onQueue Queue.takePending
  sink.commitAll views
  let completions ← Hosted.onQueue Queue.takeCompletions
  completions.forM sink.complete
  let report := ⟨views.length, completions.length⟩
  if let some line := report.line? (← get).queue.world then Hosted.addLine line
  return report

end Sink

end Cadastre
