import Cadastre.Proofs.Queue.Views
import Cadastre.Queue.Flush
/-!
# Cadastre.Proofs.Queue.Flush

**What a flush does**, whatever its receiver answers.

A `Journal` lists all that flushes did outside of the queue. The receiver may look there for its
answer to the next chunk, so any sequence of answers is one that some receiver gives. A flush goes
through if every chunk is accepted and otherwise stops at the first that is refused
(`Sink.flush_cases`), by induction on the chunks that are still to be handed over
(`Sink.commitAll_cases`).
-/

namespace Cadastre

variable {κ : Type}

/-! ### Receivers -/

/-- Something that a flush does outside of the queue. -/
inductive Event (κ : Type)
  | accepted (world : String) (chunk : Chunk)
  | refused (world : String) (chunk : Chunk) (reason : Error)
  | ran (completion : κ)

/-- What the flushes so far did outside of the queue, in order. -/
abbrev Journal (κ : Type) := List (Event κ)

/-- How a receiver answers a chunk of a world, in view of what happened before. -/
abbrev Answer (κ : Type) := Journal κ → String → Chunk → Except Error Unit

/-- The receiver with given answers. Neither it nor a completion uses the queue. -/
def Sink.answering (answer : Answer κ) : Sink κ (Journal κ) where
  commit world chunk := fun h =>
    match answer h.host world chunk with
    | .ok () => .ok () { h with host := h.host ++ [.accepted world chunk] }
    | .error e => .error (.error e) { h with host := h.host ++ [.refused world chunk e] }
  complete completion := modify fun h => { h with host := h.host ++ [.ran completion] }

/-- The event that the chunk of a view is taken over with what it holds. -/
def Queue.handOver (q : Queue κ) (v : View) : Event κ := .accepted q.world (q.content v)

/-- Whether some chunks of a world are accepted one after the other, each in view of a journal in
which those before it are. -/
def Answer.Accepts (answer : Answer κ) (world : String) : Journal κ → List Chunk → Prop
  | _, [] => True
  | j, chunk :: rest =>
    answer j world chunk = .ok () ∧ answer.Accepts world (j ++ [.accepted world chunk]) rest

/-! ### The two ends of a flush -/

/-- A flush that went through: all pending chunks were accepted in order, then all completions ran
in order, and nothing waits any more. -/
structure WentThrough (answer : Answer κ) (h h' : Hosted κ (Journal κ)) (report : FlushReport) :
    Prop where
  accepts : answer.Accepts h.queue.world h.host (h.queue.pendingViews.map h.queue.content)
  report : report = ⟨h.queue.pendingViews.length, h.queue.completions.length⟩
  journal : h'.host = h.host ++ h.queue.pendingViews.map h.queue.handOver ++
    h.queue.completions.map .ran
  pending : h'.queue.pendingViews = []
  completions : h'.queue.completions = []
  buffers : h'.queue.buffers = h.queue.buffers
  world : h'.queue.world = h.queue.world

/-- A flush that stopped at a chunk: those before it were accepted in order, it was refused, it and
those after it are pending as they were, and no completion ran. A view of one of them still writes
to what is pending. -/
structure StoppedAt (answer : Answer κ) (h h' : Hosted κ (Journal κ)) (before : List View)
    (v : View) (after : List View) (reason : Error) : Prop where
  order : h.queue.pendingViews = before ++ v :: after
  accepts : answer.Accepts h.queue.world h.host (before.map h.queue.content)
  refuses : answer (h.host ++ before.map h.queue.handOver) h.queue.world (h.queue.content v) =
    .error reason
  journal : h'.host = h.host ++ before.map h.queue.handOver ++
    [.refused h.queue.world (h.queue.content v) reason]
  pending : h'.queue.pendingViews = v :: after
  writes : ∀ w ∈ v :: after, ∀ c, (h'.queue.store w c).pendingViews = v :: after ∧
    (h'.queue.store w c).content w = c
  completions : h'.queue.completions = h.queue.completions
  buffers : h'.queue.buffers = h.queue.buffers
  world : h'.queue.world = h.queue.world

/-! ### The loops -/

namespace Sink

theorem commitAll_cons_of_ok {σ : Type} {sink : Sink κ σ} {v : View} {h h₁ : Hosted κ σ}
    (hv : sink.commit h.queue.world (h.queue.content v) h = .ok () h₁) (rest : List View) :
    sink.commitAll (v :: rest) h = sink.commitAll rest h₁ := by
  simp only [commitAll, hv]

variable (answer : Answer κ)

/-- Handing over some chunks: all are accepted, or those before one that is refused. -/
theorem commitAll_cases (views : List View) (h : Hosted κ (Journal κ)) :
    (answer.Accepts h.queue.world h.host (views.map h.queue.content) ∧
        (answering answer).commitAll views h =
          .ok () { h with host := h.host ++ views.map h.queue.handOver }) ∨
      ∃ before v after reason, views = before ++ v :: after ∧
        answer.Accepts h.queue.world h.host (before.map h.queue.content) ∧
        answer (h.host ++ before.map h.queue.handOver) h.queue.world (h.queue.content v) =
          .error reason ∧
        (answering answer).commitAll views h = .error (.error reason)
          { h with
            queue := h.queue.putBack (v :: after)
            host := h.host ++ before.map h.queue.handOver ++
              [.refused h.queue.world (h.queue.content v) reason] } := by
  induction views generalizing h with
  | nil =>
      refine .inl ⟨trivial, ?_⟩
      rw [List.map_nil, List.append_nil]
      rfl
  | cons v rest ih =>
      cases hanswer : answer h.host h.queue.world (h.queue.content v) with
      | error reason =>
          refine .inr ⟨[], v, rest, reason, rfl, trivial, ?_, ?_⟩
          · rw [List.map_nil, List.append_nil]
            exact hanswer
          · simp only [commitAll, answering, hanswer, List.map_nil, List.append_nil]
      | ok _ =>
          -- The rest goes its way from a journal with one more entry and the same queue.
          have hstep : (answering answer).commitAll (v :: rest) h =
              (answering answer).commitAll rest
                { h with host := h.host ++ [h.queue.handOver v] } := by
            simp only [commitAll, answering, hanswer, Queue.handOver]
          have hjournal (views : List View) : h.host ++ (v :: views).map h.queue.handOver =
              h.host ++ [h.queue.handOver v] ++ views.map h.queue.handOver := by
            rw [List.map_cons, List.append_assoc]
            rfl
          rw [hstep, hjournal]
          rcases ih { h with host := h.host ++ [h.queue.handOver v] } with
            ⟨haccepts, hall⟩ | ⟨before, w, after, reason, rfl, haccepts, hrefuses, hstop⟩
          · exact .inl ⟨⟨hanswer, haccepts⟩, hall⟩
          · refine .inr ⟨v :: before, w, after, reason, rfl, ⟨hanswer, haccepts⟩, ?_, ?_⟩
            · rw [hjournal]
              exact hrefuses
            · rw [hjournal]
              exact hstop

/-- Running some completions notes each of them. -/
theorem complete_all (completions : List κ) (h : Hosted κ (Journal κ)) :
    completions.forM (answering answer).complete h =
      .ok () { h with host := h.host ++ completions.map .ran } := by
  induction completions generalizing h with
  | nil =>
      rw [List.map_nil, List.append_nil]
      rfl
  | cons completion rest ih =>
      have hstep : (completion :: rest).forM (answering answer).complete h =
          rest.forM (answering answer).complete
            { h with host := h.host ++ [.ran completion] } := rfl
      rw [hstep, ih, List.map_cons, List.append_assoc]
      rfl

/-! ### The flush -/

/-- A flush that did its work reports it. A line is logged or not: that is all that the report
decides. -/
theorem exists_report {σ : Type} (report : FlushReport) (h : Hosted κ σ) : ∃ log, (do
    if let some line := report.line? (← get).queue.world then Hosted.addLine line
    return report : Edit (Hosted κ σ) FlushReport) h = .ok report { h with log } := by
  rw [Edit.get_bind]
  cases report.line? h.queue.world with
  | none => exact ⟨_, rfl⟩
  | some line => exact ⟨_, rfl⟩

/-- The end of a flush whose chunks were all taken over. -/
theorem finish_spec (committed : Nat) (h : Hosted κ (Journal κ)) :
    ∃ log, (do
      let completions ← Hosted.onQueue Queue.takeCompletions
      completions.forM (answering answer).complete
      let report : FlushReport := ⟨committed, completions.length⟩
      if let some line := report.line? (← get).queue.world then Hosted.addLine line
      return report : Edit (Hosted κ (Journal κ)) FlushReport) h =
        .ok ⟨committed, h.queue.completions.length⟩
          { queue := h.queue.takeCompletions.2, log
            host := h.host ++ h.queue.completions.map .ran } := by
  have htake : Hosted.onQueue Queue.takeCompletions h =
      .ok h.queue.completions { h with queue := h.queue.takeCompletions.2 } := rfl
  rw [Edit.bind_of_ok htake, Edit.bind_of_ok (complete_all answer _ _)]
  exact exists_report _ _

/-- **A flush goes through or stops at one chunk.** -/
theorem flush_cases (h : Hosted κ (Journal κ)) :
    (∃ report h', (answering answer).flush h = .ok report h' ∧ WentThrough answer h h' report) ∨
      ∃ before v after reason h', (answering answer).flush h = .error (.error reason) h' ∧
        StoppedAt answer h h' before v after reason := by
  have htake : Hosted.onQueue Queue.takePending h =
      .ok h.queue.pendingViews { h with queue := h.queue.takePending.2 } := rfl
  unfold flush
  rw [Edit.bind_of_ok htake]
  rcases commitAll_cases answer h.queue.pendingViews { h with queue := h.queue.takePending.2 } with
    ⟨hall, hok⟩ | ⟨before, v, after, reason, horder, hbefore, hrefuses, hstop⟩
  · left
    rw [Edit.bind_of_ok hok]
    obtain ⟨log, hfinish⟩ := finish_spec answer h.queue.pendingViews.length
      { h with
        queue := h.queue.takePending.2
        host := h.host ++ h.queue.pendingViews.map h.queue.handOver }
    exact ⟨_, _, hfinish, hall, rfl, rfl, rfl, rfl, rfl, rfl⟩
  · refine .inr ⟨before, v, after, reason, _, Edit.bind_of_error hstop, ?_⟩
    obtain ⟨hworld, hbuffers, hcompletions⟩ := h.queue.takePending.2.putBack_frame (v :: after)
    have hbuffer : ∀ w ∈ v :: after, w.buffer < h.queue.buffers.size := fun w hw =>
      Queue.buffer_lt_of_mem (horder ▸ List.mem_append_right before hw)
    -- The views come back into a queue in which nothing is pending, and so in their order.
    have hpending : (h.queue.takePending.2.putBack (v :: after)).pendingViews = v :: after := by
      refine Queue.pendingViews_putBack (fun _ => Std.TreeMap.getElem?_emptyc) ?_ hbuffer
      have hsorted := h.queue.sorted_pendingViews
      rw [horder] at hsorted
      exact (List.pairwise_append.mp hsorted).2.1
    refine ⟨horder, hbefore, hrefuses, rfl, hpending, fun w hw c => ⟨hpending, ?_⟩, hcompletions,
      hbuffers, hworld⟩
    refine Queue.content_store _ ?_ c
    rw [hbuffers]
    exact hbuffer w hw

end Sink

end Cadastre
