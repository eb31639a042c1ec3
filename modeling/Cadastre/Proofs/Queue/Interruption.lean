import Cadastre.Proofs.Queue.Stepwise
/-!
# Cadastre.Proofs.Queue.Interruption

**What a flush that is cut off leaves behind** (`Sink.flush_cut_off`).

A flush empties the queue before it calls anybody, of its chunks first and later of its completions,
and only a refusal puts something back. So a cut in the receiver loses the chunk that was in its
hands and all that come after it, while the completions still wait. A cut in a completion loses the
completions behind it. Nothing is lost only if it was the last completion that was cut off.

The part of the flush that came to its end uses the queue, and no use brings back a buffer that was
taken (`Queue.Onward`).
-/

namespace Cadastre

variable {κ σ α : Type}

/-! ### Queues over time -/

/-- Whether a queue may be what uses of another have made of it. Buffers are only added, a buffer
that is not pending stays so, and completions are added behind those that wait. -/
structure Queue.Onward (q q' : Queue κ) : Prop where
  size : q.buffers.size ≤ q'.buffers.size
  views : ∀ w ∈ q'.pendingViews, w ∈ q.pendingViews ∨ q.buffers.size ≤ w.buffer
  completions : q.completions <+: q'.completions

namespace Queue.Onward

variable {q q' q'' : Queue κ}

theorem refl (q : Queue κ) : q.Onward q := ⟨le_rfl, fun _ hw => .inl hw, List.prefix_rfl⟩

theorem trans (h : q.Onward q') (h' : q'.Onward q'') : q.Onward q'' where
  size := h.size.trans h'.size
  views w hw := by
    rcases h'.views w hw with hold | hnew
    · exact h.views w hold
    · exact .inr (h.size.trans hnew)
  completions := h.completions.trans h'.completions

theorem of_shift {opens takes : List View} {adds : List κ} (h : q.Shift q' opens takes adds) :
    q.Onward q' where
  size := by
    rw [h.size]
    exact Nat.le_add_right _ _
  views w hw := by
    have hmem := h.views.mem_iff.mpr (List.mem_append_right takes hw)
    rcases List.mem_append.mp hmem with hnew | hold
    · have hfresh := List.mem_map_of_mem (f := View.buffer) hnew
      rw [h.fresh, List.mem_range'_1] at hfresh
      exact .inr hfresh.1
    · exact .inl hold
  completions := ⟨adds, h.completions.symm⟩

theorem of_uses (q : Queue κ) (uses : List (Use κ)) : q.Onward (Use.afterAll q uses) := by
  induction uses generalizing q with
  | nil => exact .refl q
  | cons u rest ih => exact (of_shift (u.shift q)).trans (ih (u.after q))

theorem of_usesQueue {edit : Edit (Hosted κ σ) α} (hedit : edit.UsesQueue) :
    edit.Leads fun h h' => h.queue.Onward h'.queue := by
  intro h
  obtain ⟨uses, huses⟩ := hedit h
  rw [huses]
  exact of_uses h.queue uses

/-- Where nothing was pending, what is pending has got its buffer since. -/
theorem newer (h : q.Onward q') (hempty : q.pendingViews = []) {w : View}
    (hw : w ∈ q'.pendingViews) : q.buffers.size ≤ w.buffer := by
  rcases h.views w hw with hold | hnew
  · rw [hempty] at hold
    cases hold
  · exact hnew

end Queue.Onward

/-! ### Handing over and completing -/

namespace Sink

variable {sink : Sink κ σ}

/-- Handing chunks over is cut off at one of them, with those before it accepted. -/
theorem commitAll_cut {views : List View} {h h' : Hosted κ σ} {a : Abort}
    (hcut : sink.commitAll views h = .error (.abort a) h') :
    ∃ before v after h₁, views = before ++ v :: after ∧ sink.commitAll before h = .ok () h₁ ∧
      sink.commit h₁.queue.world (h₁.queue.content v) h₁ = .error (.abort a) h' := by
  induction views generalizing h with
  | nil => cases hcut
  | cons v rest ih =>
      cases hv : sink.commit h.queue.world (h.queue.content v) h with
      | ok u h₁ =>
          rw [commitAll_cons_of_ok hv] at hcut
          obtain ⟨before, w, after, h₂, rfl, hbefore, hw⟩ := ih hcut
          exact ⟨v :: before, w, after, h₂, rfl, (commitAll_cons_of_ok hv before).trans hbefore, hw⟩
      | error failure h₁ =>
          simp only [commitAll, hv] at hcut
          cases failure with
          | error e => cases hcut
          | abort b =>
              cases hcut
              exact ⟨[], v, rest, h, rfl, rfl, hv⟩

/-- Handing chunks over that are all accepted uses the queue and nothing else. -/
theorem onward_commitAll (hsink : sink.UsesQueue) {views : List View} {h h' : Hosted κ σ}
    (hok : sink.commitAll views h = .ok () h') : h.queue.Onward h'.queue := by
  induction views generalizing h with
  | nil =>
      cases hok
      exact .refl _
  | cons v rest ih =>
      cases hv : sink.commit h.queue.world (h.queue.content v) h with
      | ok u h₁ =>
          rw [commitAll_cons_of_ok hv] at hok
          exact ((Queue.Onward.of_usesQueue (hsink.commit _ _)).of_ok hv).trans (ih hok)
      | error failure h₁ =>
          simp only [commitAll, hv] at hok
          cases failure <;> cases hok

/-- Running completions uses the queue, whether all of them come to their end or not. -/
theorem onward_complete (hsink : sink.UsesQueue) (completions : List κ) :
    (completions.forM sink.complete).Leads fun h h' => h.queue.Onward h'.queue :=
  .forM (fun h => .refl h.queue) (fun _ _ _ => .trans)
    (fun completion => .of_usesQueue (hsink.complete completion)) completions

/-! ### The two cuts -/

/-- Whether completions add none to the queue. -/
def AddsNone (sink : Sink κ σ) : Prop :=
  ∀ completion, (sink.complete completion).Keeps fun h => h.queue.completions

/-- A flush that was cut off with a chunk in the receiver's hands, reached in `h₁`. The chunks
before it were accepted. It was not, those after it were not offered, and none of them is pending:
what is has got its buffer since the flush began. The completions that waited still do. -/
structure CutInReceiver (sink : Sink κ σ) (a : Abort) (h h' : Hosted κ σ) (before : List View)
    (v : View) (after : List View) (h₁ : Hosted κ σ) : Prop where
  order : h.queue.pendingViews = before ++ v :: after
  accepts : sink.commitAll before { h with queue := h.queue.takePending.2 } = .ok () h₁
  cut : sink.commit h₁.queue.world (h₁.queue.content v) h₁ = .error (.abort a) h'
  newer : ∀ w ∈ h'.queue.pendingViews, h.queue.buffers.size ≤ w.buffer
  lost : ∀ w ∈ v :: after, w ∉ h'.queue.pendingViews
  completions : h.queue.completions <+: h'.queue.completions

/-- A flush that was cut off in a completion. All chunks were accepted, up to `h₁`. The completions
before it ran, up to `h₂`, and those behind it were not begun and do not wait: what does was added
by the completions that were begun. -/
structure CutInCompletion (sink : Sink κ σ) (a : Abort) (h h' : Hosted κ σ) (before : List κ)
    (completion : κ) (after : List κ) (h₁ h₂ : Hosted κ σ) : Prop where
  accepts : sink.commitAll h.queue.pendingViews { h with queue := h.queue.takePending.2 } =
    .ok () h₁
  completions : h.queue.completions <+: h₁.queue.completions
  order : h₁.queue.completions = before ++ completion :: after
  runs : before.forM sink.complete { h₁ with queue := h₁.queue.takeCompletions.2 } = .ok () h₂
  cut : sink.complete completion h₂ = .error (.abort a) h'
  newer : ∀ w ∈ h'.queue.pendingViews, h.queue.buffers.size ≤ w.buffer
  lost : sink.AddsNone → h'.queue.completions = []

theorem cutInReceiver_of_commitAll (hsink : sink.UsesQueue) {a : Abort} {h h' : Hosted κ σ}
    (hcut : sink.commitAll h.queue.pendingViews { h with queue := h.queue.takePending.2 } =
      .error (.abort a) h') :
    ∃ before v after h₁, sink.CutInReceiver a h h' before v after h₁ := by
  obtain ⟨before, v, after, h₁, horder, haccepts, hv⟩ := commitAll_cut hcut
  have honward := (onward_commitAll hsink haccepts).trans
    ((Queue.Onward.of_usesQueue (hsink.commit _ _)).of_error hv)
  have hnewer : ∀ w ∈ h'.queue.pendingViews, h.queue.buffers.size ≤ w.buffer := fun w hw =>
    honward.newer h.queue.pendingViews_takePending hw
  refine ⟨before, v, after, h₁, horder, haccepts, hv, hnewer, fun w hw hpending => ?_,
    honward.completions⟩
  have hold : w ∈ h.queue.pendingViews := horder ▸ List.mem_append_right before hw
  exact absurd (Queue.buffer_lt_of_mem hold) (hnewer w hpending).not_gt

theorem cutInCompletion_of_forM (hsink : sink.UsesQueue) {a : Abort} {h h' h₁ : Hosted κ σ}
    (haccepts : sink.commitAll h.queue.pendingViews { h with queue := h.queue.takePending.2 } =
      .ok () h₁)
    (hcut : h₁.queue.completions.forM sink.complete
      { h₁ with queue := h₁.queue.takeCompletions.2 } = .error (.abort a) h') :
    ∃ before completion after h₂,
      sink.CutInCompletion a h h' before completion after h₁ h₂ := by
  have honward := onward_commitAll hsink haccepts
  have hrest := (onward_complete hsink h₁.queue.completions).of_error hcut
  obtain ⟨before, completion, after, h₂, horder, hruns, hlast⟩ := Edit.exists_of_forM_error hcut
  refine ⟨before, completion, after, h₂, haccepts, honward.completions, horder, hruns, hlast, ?_,
    ?_⟩
  · -- Taking the completions leaves the chunks as they are.
    intro w hw
    rcases hrest.views w hw with hold | hnew
    · exact honward.newer h.queue.pendingViews_takePending hold
    · exact honward.size.trans hnew
  · intro hnone
    exact ((hnone completion).of_error hlast).trans ((Edit.Keeps.forM hnone before).of_ok hruns)

/-- **What a flush that is cut off leaves.** Either it was cut off in the receiver, and then the
chunk in its hands and all after it are neither accepted nor pending, while no completion was begun
and all still wait. Or it was cut off in a completion, and then all chunks were accepted, while the
completions behind it were neither begun nor wait. -/
theorem flush_cut_off (hsink : sink.UsesQueue) {a : Abort} {h h' : Hosted κ σ}
    (hcut : sink.flush h = .error (.abort a) h') :
    (∃ before v after h₁, sink.CutInReceiver a h h' before v after h₁) ∨
      ∃ before completion after h₁ h₂,
        sink.CutInCompletion a h h' before completion after h₁ h₂ := by
  have htake : Hosted.onQueue Queue.takePending h =
      .ok h.queue.pendingViews { h with queue := h.queue.takePending.2 } := rfl
  rw [flush, Edit.bind_of_ok htake] at hcut
  cases hcommit : sink.commitAll h.queue.pendingViews { h with queue := h.queue.takePending.2 } with
  | error failure h₁ =>
      rw [Edit.bind_of_error hcommit] at hcut
      cases hcut
      exact .inl (cutInReceiver_of_commitAll hsink hcommit)
  | ok u h₁ =>
      have htake' : Hosted.onQueue Queue.takeCompletions h₁ =
          .ok h₁.queue.completions { h₁ with queue := h₁.queue.takeCompletions.2 } := rfl
      rw [Edit.bind_of_ok hcommit, Edit.bind_of_ok htake'] at hcut
      cases hrun : h₁.queue.completions.forM sink.complete
          { h₁ with queue := h₁.queue.takeCompletions.2 } with
      | error failure h₂ =>
          rw [Edit.bind_of_error hrun] at hcut
          cases hcut
          obtain ⟨before, completion, after, h₃, hcompletion⟩ :=
            cutInCompletion_of_forM hsink hcommit hrun
          exact .inr ⟨before, completion, after, h₁, h₃, hcompletion⟩
      | ok u h₂ =>
          -- Only the report is left to be made, and that is never cut off.
          rw [Edit.bind_of_ok hrun] at hcut
          obtain ⟨log, hreport⟩ :=
            exists_report ⟨h.queue.pendingViews.length, h₁.queue.completions.length⟩ h₂
          cases hreport.symm.trans hcut

/-- A receiver that is cut off by the first chunk that it gets, with completions that are cut off as
soon as they have begun. -/
def exploding : Sink Nat (Journal Nat) where
  commit _ _ := throw (.abort (.raised "sink exploded"))
  complete completion := do
    modify fun h => { h with host := h.host ++ [.ran completion] }
    throw (.abort (.raised "completion exploded"))

theorem usesQueue_exploding : exploding.UsesQueue where
  commit _ _ _ := ⟨[], rfl⟩
  complete _ _ := ⟨[], rfl⟩

/-- A queue with one pending chunk. -/
def burdened : Hosted Nat (Journal Nat) := ⟨((Queue.new "plotworld").forChunk ⟨0, 0⟩).2, #[], []⟩

/-- A queue with two completions. -/
def notified : Hosted Nat (Journal Nat) :=
  ⟨((Queue.new "plotworld").addCompletion 7).addCompletion 8, #[], []⟩

theorem flush_cut_off_exploding :
    exploding.UsesQueue ∧ ∃ h', exploding.flush notified =
        .error (.abort (.raised "completion exploded")) h' ∧
      ((∃ before v after h₁,
          exploding.CutInReceiver (.raised "completion exploded") notified h' before v after h₁) ∨
        ∃ before completion after h₁ h₂, exploding.CutInCompletion (.raised "completion exploded")
          notified h' before completion after h₁ h₂) :=
  ⟨usesQueue_exploding, _, rfl, flush_cut_off usesQueue_exploding
    (show exploding.flush notified = .error (.abort (.raised "completion exploded")) _ from rfl)⟩

/-- **A cut loses what was taken.** A chunk that was pending is neither accepted nor pending, and a
completion that waited has neither been begun nor waits. -/
theorem cut_off_loses :
    (∃ h', exploding.flush burdened = .error (.abort (.raised "sink exploded")) h' ∧
      burdened.queue.pendingViews = [⟨⟨0, 0⟩, 0⟩] ∧ h'.host.accepted = [] ∧
      h'.queue.pendingViews = []) ∧
    ∃ h', exploding.flush notified = .error (.abort (.raised "completion exploded")) h' ∧
      notified.queue.completions = [7, 8] ∧ h'.host.ran = [7] ∧ h'.queue.completions = [] :=
  ⟨⟨_, rfl, rfl, rfl, rfl⟩, ⟨_, rfl, rfl, rfl, rfl⟩⟩

end Sink

end Cadastre
