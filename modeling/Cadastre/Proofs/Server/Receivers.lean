import Cadastre.Proofs.Queue.Flush
import Cadastre.Server.Summary
/-!
# Cadastre.Proofs.Server.Receivers

**What is known of a receiver.** A part of its state may be the number of chunks that it took over
(`Sink.Counts`), or the list of them (`Sink.Records`) if it never fails. Either can be kept beside
every receiver (`Sink.counting`, `Sink.recording`), so it is no restriction to ask for it.
-/

namespace Cadastre

variable {κ σ τ α : Type}

/-! ### Notes -/

/-- An edit beside a note, which changes if the edit comes to its end. -/
def Edit.beside (edit : Edit (Hosted κ σ) α) (change : τ → τ) :
    Edit (Hosted κ (σ × τ)) α := fun h =>
  match edit ⟨h.queue, h.log, h.host.1⟩ with
  | .ok a h' => .ok a ⟨h'.queue, h'.log, (h'.host, change h.host.2)⟩
  | .error e h' => .error e ⟨h'.queue, h'.log, (h'.host, h.host.2)⟩

namespace Edit

variable {edit : Edit (Hosted κ σ) α} {change : τ → τ} {h h' : Hosted κ (σ × τ)}

theorem beside_of_ok {a : α} (hok : edit.beside change h = .ok a h') :
    h'.host.2 = change h.host.2 := by
  unfold beside at hok
  split at hok
  · cases hok
    rfl
  · cases hok

theorem beside_of_error {e : Failure} (herror : edit.beside change h = .error e h') :
    h'.host.2 = h.host.2 := by
  unfold beside at herror
  split at herror
  · cases herror
  · cases herror
    rfl

theorem beside_ends
    (hedit : edit.Ends ⟨h.queue, h.log, h.host.1⟩ fun _ h' => h'.queue = h.queue) :
    (edit.beside change).Ends h fun _ h' =>
      h'.queue = h.queue ∧ h'.host.2 = change h.host.2 := by
  obtain ⟨a, h', hok, hqueue⟩ := hedit
  refine ⟨a, ⟨h'.queue, h'.log, (h'.host, change h.host.2)⟩, ?_, hqueue, rfl⟩
  unfold beside
  rw [hok]

end Edit

namespace Sink

/-! ### Counting -/

/-- Whether a part of the receiver's state is the number of chunks that it took over. -/
structure Counts (sink : Sink κ σ) (accepted : σ → Nat) : Prop where
  commit_ok : ∀ {world chunk h h'}, sink.commit world chunk h = .ok () h' →
    accepted h'.host = accepted h.host + 1
  commit_error : ∀ {world chunk h e h'}, sink.commit world chunk h = .error e h' →
    accepted h'.host = accepted h.host
  complete : ∀ completion, (sink.complete completion).Keeps fun h => accepted h.host

/-- A receiver with a count of the chunks that it took over. -/
def counting (sink : Sink κ σ) : Sink κ (σ × Nat) where
  commit world chunk := (sink.commit world chunk).beside (· + 1)
  complete completion := (sink.complete completion).beside id

/-- **Every receiver can be counted.** -/
theorem counts_counting (sink : Sink κ σ) : sink.counting.Counts Prod.snd where
  commit_ok := Edit.beside_of_ok
  commit_error := Edit.beside_of_error
  complete completion h := by
    rw [Edit.outcome]
    cases hrun : sink.counting.complete completion h with
    | ok _ h' => exact Edit.beside_of_ok hrun
    | error e h' => exact Edit.beside_of_error hrun

/-! ### Recording -/

/-- A receiver that never fails and leaves the queue alone. The receiver of a run cannot do
otherwise: it is given a chunk and the name of a world, and knows no queue. -/
structure Steady (sink : Sink κ σ) : Prop where
  commit : ∀ world chunk h, (sink.commit world chunk).Ends h fun _ h' => h'.queue = h.queue
  complete : ∀ completion h, (sink.complete completion).Ends h fun _ h' => h'.queue = h.queue

/-- Whether a receiver that never fails and leaves the queue alone has in a part of its state the
chunks that it took over, each with the name of its world. -/
structure Records (sink : Sink κ σ) (received : σ → List (String × Chunk)) : Prop where
  commit : ∀ world chunk h, (sink.commit world chunk).Ends h fun _ h' =>
    h'.queue = h.queue ∧ received h'.host = received h.host ++ [(world, chunk)]
  complete : ∀ completion h, (sink.complete completion).Ends h fun _ h' =>
    h'.queue = h.queue ∧ received h'.host = received h.host

/-- A receiver with a record of the chunks that it took over. -/
def recording (sink : Sink κ σ) : Sink κ (σ × List (String × Chunk)) where
  commit world chunk := (sink.commit world chunk).beside (· ++ [(world, chunk)])
  complete completion := (sink.complete completion).beside id

/-- **Every receiver that never fails can be recorded.** -/
theorem Steady.records_recording {sink : Sink κ σ} (hsink : sink.Steady) :
    sink.recording.Records Prod.snd where
  commit world chunk h := by
    show ((sink.commit world chunk).beside (· ++ [(world, chunk)])).Ends h _
    exact Edit.beside_ends (hsink.commit world chunk _)
  complete completion h := Edit.beside_ends (hsink.complete completion _)

variable {sink : Sink κ σ} {received : σ → List (String × Chunk)}

theorem commitAll_records (hsink : sink.Records received) (views : List View) (h : Hosted κ σ) :
    (sink.commitAll views).Ends h fun _ h' => h'.queue = h.queue ∧
      received h'.host =
        received h.host ++ views.map fun v => (h.queue.world, h.queue.content v) := by
  induction views generalizing h with
  | nil => exact Edit.ends_pure ⟨rfl, (List.append_nil _).symm⟩
  | cons v rest ih =>
      obtain ⟨_, h₁, hv, hqueue, hreceived⟩ :=
        hsink.commit h.queue.world (h.queue.content v) h
      obtain ⟨_, h₂, hrest, hqueue', hreceived'⟩ := ih h₁
      refine ⟨(), h₂, (commitAll_cons_of_ok hv rest).trans hrest, hqueue'.trans hqueue, ?_⟩
      rw [hreceived', hreceived, hqueue, List.map_cons, List.append_assoc]
      rfl

theorem complete_records (hsink : sink.Records received) (completions : List κ)
    (h : Hosted κ σ) : (completions.forM sink.complete).Ends h fun _ h' =>
      h'.queue = h.queue ∧ received h'.host = received h.host := by
  induction completions generalizing h with
  | nil => exact Edit.ends_pure ⟨rfl, rfl⟩
  | cons completion rest ih =>
      refine (hsink.complete completion h).bind fun _ h₁ hfirst => (ih h₁).mono fun _ h₂ hrest => ?_
      exact ⟨hrest.1.trans hfirst.1, hrest.2.trans hfirst.2⟩

/-- **A flush hands everything over** to a receiver that never fails, and leaves nothing pending. -/
theorem flush_records (hsink : sink.Records received) (h : Hosted κ σ) :
    sink.flush.Ends h fun report h' => report.committed = h.queue.pendingViews.length ∧
      h'.queue.world = h.queue.world ∧ h'.queue.pendingViews = [] ∧
      received h'.host = received h.host ++
        h.queue.pendingViews.map fun v => (h.queue.world, h.queue.content v) := by
  let h₁ : Hosted κ σ := { h with queue := h.queue.takePending.2 }
  have htake : Hosted.onQueue Queue.takePending h = .ok h.queue.pendingViews h₁ := rfl
  obtain ⟨_, h₂, hcommit, hqueue, hreceived⟩ := commitAll_records hsink h.queue.pendingViews h₁
  let h₃ : Hosted κ σ := { h₂ with queue := h₂.queue.takeCompletions.2 }
  have htake' : Hosted.onQueue Queue.takeCompletions h₂ = .ok h₂.queue.completions h₃ := rfl
  obtain ⟨_, h₄, hcomplete, hqueue', hreceived'⟩ :=
    complete_records hsink h₂.queue.completions h₃
  have hworld : h₄.queue.world = h.queue.world := by
    rw [hqueue']
    exact congrArg (·.takeCompletions.2.world) hqueue
  have hpending : h₄.queue.pendingViews = [] := by
    rw [hqueue', Queue.pendingViews_takeCompletions, hqueue]
    exact h.queue.pendingViews_takePending
  obtain ⟨log, hreport⟩ :=
    exists_report ⟨h.queue.pendingViews.length, h₂.queue.completions.length⟩ h₄
  have hflush : sink.flush h =
      .ok ⟨h.queue.pendingViews.length, h₂.queue.completions.length⟩ { h₄ with log } := by
    rw [flush, Edit.bind_of_ok htake, Edit.bind_of_ok hcommit, Edit.bind_of_ok htake',
      Edit.bind_of_ok hcomplete]
    exact hreport
  exact ⟨_, _, hflush, rfl, hworld, hpending, hreceived'.trans hreceived⟩

end Sink

/-- The receiver that counts never fails. -/
theorem Tally.steady_sink : Tally.sink.Steady where
  commit _ _ _ := ⟨_, _, rfl, rfl⟩
  complete _ _ := ⟨_, _, rfl, rfl⟩

end Cadastre
