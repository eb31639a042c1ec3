import Cadastre.Proofs.Queue.Calls
import Cadastre.Proofs.Queue.Conservation
/-!
# Cadastre.Proofs.Queue.Stepwise

**A flush goes by the steps of a daybook**, with what the receiver and the completions do to the
queue between them (`Sink.flush_steps`). And a call that nobody interrupts is what editing a chunk is
when nobody else is there (`Crew.queue_solo`).

So what holds in whatever state steps lead to holds after every flush, whatever its receiver does,
as long as it knows the queue only by its operations.
-/

namespace Cadastre

variable {κ σ α : Type}

/-! ### Uses as operations -/

/-- A use as an operation on a queue at work. -/
def Use.operation : Use κ → Operation κ
  | forChunk coord => .forChunk coord
  | write v edit => .write v edit.run
  | take coord => .take coord
  | addCompletion completion => .addCompletion completion

theorem Use.after_operation (u : Use κ) (h : Hosted κ (Journal κ)) :
    (u.operation.after h).queue = u.after h.queue := by
  cases u with
  | write v edit =>
      rw [operation, Operation.after_write]
      rfl
  | _ => rfl

/-- The queue after uses of it, one after the other. -/
def Use.afterAll (q : Queue κ) (uses : List (Use κ)) : Queue κ := uses.foldl (fun q u => u.after q) q

/-- Whether an edit does nothing to the queue but use it. -/
def Edit.UsesQueue (edit : Edit (Hosted κ σ) α) : Prop :=
  ∀ h, ∃ uses : List (Use κ), (edit.outcome h).2.queue = Use.afterAll h.queue uses

/-- A receiver that does nothing to the queue but use it, with completions that do not either. -/
structure Sink.UsesQueue (sink : Sink κ σ) : Prop where
  commit : ∀ world chunk, (sink.commit world chunk).UsesQueue
  complete : ∀ completion, (sink.complete completion).UsesQueue

/-- A receiver that only answers and notes does not touch the queue. -/
theorem Sink.usesQueue_answering (answer : Answer κ) : (Sink.answering answer).UsesQueue where
  commit world chunk h := by
    refine ⟨[], ?_⟩
    cases hanswer : answer h.host world chunk with
    | ok _ => simp [Edit.outcome, Sink.answering, hanswer, Use.afterAll]
    | error e => simp [Edit.outcome, Sink.answering, hanswer, Use.afterAll]
  complete completion h := ⟨[], rfl⟩

namespace Daybook

/-- Any number of steps. -/
abbrev Steps (d d' : Daybook κ) : Prop := Relation.ReflTransGen Step d d'

/-- What uses the queue goes by uses, and the flush stands where it stood. -/
theorem steps_of_usesQueue {edit : Edit (Hosted κ σ) α} (hedit : edit.UsesQueue) (h : Hosted κ σ)
    {d : Daybook κ} (hqueue : d.queue = h.queue) :
    ∃ d', d.Steps d' ∧ d'.queue = (edit.outcome h).2.queue ∧ d'.stage = d.stage := by
  obtain ⟨uses, huses⟩ := hedit h
  rw [huses, ← hqueue]
  clear huses hqueue
  induction uses generalizing d with
  | nil => exact ⟨d, .refl, rfl, rfl⟩
  | cons u rest ih =>
      obtain ⟨d', hsteps, hend⟩ := ih (d := d.use u)
      exact ⟨d', hsteps.head (.use d u), hend⟩

end Daybook

/-! ### Flushes as steps -/

namespace Sink

variable {sink : Sink κ σ}

/-- Handing chunks over ends with all of them accepted, or with the flush over. -/
theorem commitAll_steps (hsink : sink.UsesQueue) (views : List View) (h : Hosted κ σ)
    {d : Daybook κ} (hqueue : d.queue = h.queue) (hstage : d.stage = .handing views) :
    ∃ d', d.Steps d' ∧ d'.queue = ((sink.commitAll views).outcome h).2.queue ∧
      d'.stage = if ((sink.commitAll views).outcome h).1.isOk then .handing [] else .idle := by
  induction views generalizing h d with
  | nil => exact ⟨d, .refl, hqueue, hstage⟩
  | cons v rest ih =>
      have hoffer := Daybook.Step.flush (.offer hstage)
      obtain ⟨d', hsteps, hqueue', hstage'⟩ := Daybook.steps_of_usesQueue
        (hsink.commit h.queue.world (h.queue.content v)) h (d := d.offer v rest) hqueue
      replace hsteps := hsteps.head hoffer
      cases hcommit : sink.commit h.queue.world (h.queue.content v) h with
      | ok a h' =>
          have hrest : (sink.commitAll (v :: rest)).outcome h = (sink.commitAll rest).outcome h' := by
            simp only [Edit.outcome, commitAll, hcommit]
          simp only [Edit.outcome, hcommit] at hqueue'
          obtain ⟨d'', hsteps', hend⟩ := ih h' (d := d'.accept v _ rest) hqueue' rfl
          rw [hrest]
          exact ⟨d'', (hsteps.tail (.flush (.accept hstage'))).trans hsteps', hend⟩
      | error failure h' =>
          simp only [Edit.outcome, hcommit] at hqueue'
          cases failure with
          | error e =>
              have hstop : (sink.commitAll (v :: rest)).outcome h =
                  (.error (.error e), { h' with queue := h'.queue.putBack (v :: rest) }) := by
                simp only [Edit.outcome, commitAll, hcommit]
              rw [hstop, ← hqueue']
              exact ⟨_, hsteps.tail (.flush (.refuse hstage')), rfl, rfl⟩
          | abort a =>
              have hstop : (sink.commitAll (v :: rest)).outcome h = (.error (.abort a), h') := by
                simp only [Edit.outcome, commitAll, hcommit]
              rw [hstop]
              exact ⟨_, hsteps.tail (.abort (by rw [hstage']; rfl)), hqueue', rfl⟩

/-- Running completions ends with all of them over, or with the flush over. -/
theorem complete_steps (hsink : sink.UsesQueue) (completions : List κ) (h : Hosted κ σ)
    {d : Daybook κ} (hqueue : d.queue = h.queue) (hstage : d.stage = .completing completions) :
    ∃ d', d.Steps d' ∧ d'.queue = ((completions.forM sink.complete).outcome h).2.queue ∧
      d'.stage =
        if ((completions.forM sink.complete).outcome h).1.isOk then .completing [] else .idle := by
  induction completions generalizing h d with
  | nil => exact ⟨d, .refl, hqueue, hstage⟩
  | cons completion rest ih =>
      have hcomplete := Daybook.Step.flush (.complete hstage)
      obtain ⟨d', hsteps, hqueue', hstage'⟩ := Daybook.steps_of_usesQueue
        (hsink.complete completion) h (d := d.complete rest) hqueue
      replace hsteps := hsteps.head hcomplete
      have hcons : (completion :: rest).forM sink.complete =
          (sink.complete completion >>= fun _ => rest.forM sink.complete) := rfl
      rw [hcons]
      cases hrun : sink.complete completion h with
      | ok a h' =>
          simp only [Edit.outcome, hrun] at hqueue'
          obtain ⟨d'', hsteps', hend⟩ := ih h' hqueue' hstage'
          rw [Edit.outcome_bind_of_ok hrun]
          exact ⟨d'', hsteps.trans hsteps', hend⟩
      | error failure h' =>
          simp only [Edit.outcome, hrun] at hqueue'
          rw [Edit.outcome_bind_of_error hrun]
          exact ⟨_, hsteps.tail (.abort (by rw [hstage']; rfl)), hqueue', rfl⟩

/-- **A flush goes by the steps of a daybook**, and it is over when it ends, however it does. -/
theorem flush_steps (hsink : sink.UsesQueue) (h : Hosted κ σ) {d : Daybook κ}
    (hqueue : d.queue = h.queue) (hstage : d.stage = .idle) :
    ∃ d', d.Steps d' ∧ d'.queue = (sink.flush.outcome h).2.queue ∧ d'.stage = .idle := by
  have htake : Hosted.onQueue Queue.takePending h =
      .ok h.queue.pendingViews { h with queue := h.queue.takePending.2 } := rfl
  obtain ⟨d₁, hsteps₁, hqueue₁, hstage₁⟩ := commitAll_steps hsink h.queue.pendingViews
    { h with queue := h.queue.takePending.2 } (d := d.start) (congrArg (·.takePending.2) hqueue)
    (congrArg (fun q : Queue κ => Stage.handing q.pendingViews) hqueue)
  replace hsteps₁ := hsteps₁.head (.flush (.start hstage))
  rw [flush, Edit.outcome_bind_of_ok htake]
  cases hcommit : sink.commitAll h.queue.pendingViews { h with queue := h.queue.takePending.2 } with
  | error failure h₁ =>
      simp only [Edit.outcome, hcommit] at hqueue₁ hstage₁
      rw [Edit.outcome_bind_of_error hcommit]
      exact ⟨d₁, hsteps₁, hqueue₁, hstage₁⟩
  | ok a h₁ =>
      simp only [Edit.outcome, hcommit] at hqueue₁ hstage₁
      have htake' : Hosted.onQueue Queue.takeCompletions h₁ =
          .ok h₁.queue.completions { h₁ with queue := h₁.queue.takeCompletions.2 } := rfl
      obtain ⟨d₂, hsteps₂, hqueue₂, hstage₂⟩ := complete_steps hsink h₁.queue.completions
        { h₁ with queue := h₁.queue.takeCompletions.2 } (d := d₁.release)
        (congrArg (·.takeCompletions.2) hqueue₁)
        (congrArg (fun q : Queue κ => Stage.completing q.completions) hqueue₁)
      replace hsteps₂ := (hsteps₁.tail (.flush (.release hstage₁))).trans hsteps₂
      rw [Edit.outcome_bind_of_ok hcommit, Edit.outcome_bind_of_ok htake']
      cases hrun : h₁.queue.completions.forM sink.complete
          { h₁ with queue := h₁.queue.takeCompletions.2 } with
      | error failure h₂ =>
          simp only [Edit.outcome, hrun] at hqueue₂ hstage₂
          rw [Edit.outcome_bind_of_error hrun]
          exact ⟨d₂, hsteps₂, hqueue₂, hstage₂⟩
      | ok a h₂ =>
          simp only [Edit.outcome, hrun] at hqueue₂ hstage₂
          rw [Edit.outcome_bind_of_ok hrun]
          refine ⟨d₂.finish, hsteps₂.tail (.flush (.finish hstage₂)), hqueue₂.trans ?_, rfl⟩
          -- A line is logged or not. The queue stays as it is.
          rw [Edit.outcome, Edit.get_bind]
          dsimp only
          cases FlushReport.line? ⟨h.queue.pendingViews.length, h₁.queue.completions.length⟩
              h₂.queue.world with
          | none => rfl
          | some line => rfl

end Sink

/-! ### Calls as operations -/

namespace Crew

/-- **A call that nobody interrupts edits the chunk** as if nobody else were there. -/
theorem queue_solo (c : Crew κ) (i : Nat) (coord : ChunkCoord) (edit : ChunkEdit)
    {h : Hosted κ (Journal κ)} (hqueue : c.book.queue = h.queue) :
    (c.solo i coord edit).book.queue = ((Operation.withChunk coord edit.run).after h).queue := by
  have hsolo : (c.solo i coord edit).book.queue =
      ((Use.write (c.book.queue.forChunk coord).1 edit).after (c.book.queue.forChunk coord).2) := rfl
  rw [Operation.after_withChunk, Operation.after_write, hsolo, hqueue]
  rfl

end Crew

end Cadastre
