import Cadastre.Proofs.Queue.Whole
/-!
# Cadastre.Proofs.Queue.Newest

**The newest edit of a chunk stays**, in whatever way calls and flushes mix.

Edits of one chunk go to newer and newer buffers: the buffer that an edit finds pending is the newest
that was ever made of its chunk (`Daybook.Sound.le_of_pending`), and one that is put back never takes
the place of a newer one. And whoever makes a buffer goes on until it has edited one as new
(`Crew.Covered`). So when all calls are over, the buffer of the last edit is the newest of its chunk,
and nothing can have come over it.
-/

namespace Cadastre

variable {κ : Type}

namespace Crew

variable {world : String} {c c' : Crew κ}

/-! ### The order of edits -/

/-- No pending buffer of a chunk is older than one of the chunk that was made. -/
theorem Reachable.le_of_pending (h : Reachable world c) {u w : View} (hu : u ∈ c.book.made)
    (hw : w ∈ c.book.queue.pendingViews) (hcoord : u.coord = w.coord) : u.buffer ≤ w.buffer := by
  refine h.book.sound.le_of_pending h.book.superseded hu ?_ ?_ hw hcoord
  · simp [h.placed.taken]
  · simp [h.placed.lost]

/-- A crew in which the edits of each chunk went to newer and newer buffers. -/
def Ordered (c : Crew κ) : Prop :=
  c.order.Pairwise fun e e' => e.1.coord = e'.1.coord → e.1.buffer ≤ e'.1.buffer

theorem Reachable.ordered (h : Reachable world c) : c.Ordered := by
  induction h with
  | refl => exact .nil
  | @tail c c' hsteps hstep ih =>
      have hbefore : Reachable world c := hsteps
      cases hstep with
      | @enter i coord edit v _ _ hpending =>
          refine List.pairwise_append.mpr ⟨ih, List.pairwise_singleton _ _, ?_⟩
          intro e he e' he' hcoord
          rw [List.mem_singleton.mp he'] at hcoord ⊢
          exact hbefore.le_of_pending (hbefore.placed.order e he) (Queue.isPending_iff.mp hpending)
            hcoord
      | _ => exact ih

/-- The edits of a chunk, with the buffers that they were made in. -/
def entries (c : Crew κ) (coord : ChunkCoord) : List (View × ChunkEdit) :=
  c.order.filter (·.1.coord = coord)

/-- What was accepted of a chunk, with the buffers that it was in. -/
def deliveries (c : Crew κ) (coord : ChunkCoord) : List (View × Chunk) :=
  c.book.accepted.filter (·.1.coord = coord)

/-- Whether all calls are over. -/
def Finished (c : Crew κ) : Prop := ∀ i call, c.calls i = some call → call.standing.isDone = true

theorem Finished.free (h : c.Finished) (v : View) : c.Free v := by
  intro i call hi hediting
  have hdone := h i call hi
  simp [hediting, Standing.isDone] at hdone

theorem Finished.not_underway (h : c.Finished) (coord : ChunkCoord) : ¬ c.Underway coord := by
  rintro ⟨i, call, hi, -, hunderway⟩
  have hdone := h i call hi
  cases hstanding : call.standing <;>
    simp [hstanding, Standing.isDone, Standing.isUnderway] at hdone hunderway

section Last

variable {coord : ChunkCoord} {e : View × ChunkEdit}

theorem entries_eq_of_last (hlast : (c.entries coord).getLast? = some e) :
    e ∈ c.order ∧ e.1.coord = coord ∧ ∃ earlier, c.entries coord = earlier ++ [e] := by
  obtain ⟨earlier, heq⟩ := List.getLast?_eq_some_iff.mp hlast
  have hmem : e ∈ c.entries coord := by simp [heq]
  obtain ⟨horder, hcoord⟩ := List.mem_filter.mp hmem
  exact ⟨horder, by simpa using hcoord, earlier, heq⟩

/-- When all calls are over, the buffer of the last edit of a chunk is the newest that was made. -/
theorem Reachable.le_of_last (h : Reachable world c) (hfinished : c.Finished)
    (hlast : (c.entries coord).getLast? = some e) {u : View} (hu : u ∈ c.book.made)
    (hcoord : u.coord = coord) : u.buffer ≤ e.1.buffer := by
  obtain ⟨e', he', hcoord', hle⟩ := (h.covered u hu).resolve_left (hfinished.not_underway _)
  obtain ⟨-, hlast, earlier, heq⟩ := entries_eq_of_last hlast
  have hmem : e' ∈ c.entries coord := List.mem_filter.mpr ⟨he', by simp [hcoord', hcoord]⟩
  have hordered : (c.entries coord).Pairwise _ := h.ordered.filter _
  rw [heq, List.pairwise_append] at hordered
  rw [heq, List.mem_append, List.mem_singleton] at hmem
  rcases hmem with hmem | rfl
  · refine hle.trans (hordered.2.2 e' hmem e List.mem_cons_self ?_)
    rw [hcoord', hcoord, hlast]
  · exact hle

/-- When nobody edits the buffer of the last edit of a chunk any more, it holds what that edit made
of it. -/
theorem Reachable.content_of_last (h : Reachable world c) (hfree : c.Free e.1)
    (hlast : (c.entries coord).getLast? = some e) {k : Chunk}
    (hk : ∀ old : Chunk, old.Valid → e.2.apply old = k) : c.book.queue.content e.1 = k := by
  obtain ⟨horder, hcoord, earlier, heq⟩ := entries_eq_of_last hlast
  have hmade := h.placed.order e horder
  have hsame : c.order.filter (·.1 = e.1) = (c.entries coord).filter (·.1 = e.1) := by
    rw [entries, List.filter_filter]
    refine List.filter_congr fun x _ => ?_
    by_cases hx : x.1 = e.1
    · simp [hx, hcoord]
    · simp [hx]
  have hentered : c.entered e.1 = (earlier.filter (·.1 = e.1)).map Prod.snd ++ [e.2] := by
    simp [entered, hsame, heq]
  rw [h.book.recorded.content e.1 hmade, ← h.logged.free e.1 hmade hfree, hentered,
    ChunkEdit.applyAll_concat]
  exact hk _ (ChunkEdit.valid_applyAll _ (Chunk.valid_empty _))

/-- When all calls are over, what was accepted from the buffer of the last edit of a chunk was
accepted last. -/
theorem Reachable.last_delivery (h : Reachable world c) (hfinished : c.Finished)
    (hlast : (c.entries coord).getLast? = some e) (haccepted : e.1 ∈ c.book.accepted.map Prod.fst) :
    (c.deliveries coord).getLast? = some (e.1, c.book.queue.content e.1) := by
  obtain ⟨-, hcoord, -⟩ := entries_eq_of_last hlast
  obtain ⟨⟨v, k⟩, hmem, rfl⟩ := List.mem_map.mp haccepted
  obtain ⟨before, after, heq⟩ := List.append_of_mem hmem
  have hnewer : ∀ x ∈ after, x.1.coord ≠ coord := by
    intro x hx hsame
    have hsuccession := (List.pairwise_append.mp h.book.sound.succession).1
    rw [heq, List.map_append, List.map_cons, List.pairwise_append, List.pairwise_cons]
      at hsuccession
    have hlt := hsuccession.2.1.1 x.1 (List.mem_map_of_mem hx) (hcoord.trans hsame.symm)
    have hmade : x.1 ∈ c.book.made := by
      refine h.book.sound.mem_made.mpr (.inl (List.mem_append_left _ (List.mem_map_of_mem ?_)))
      simp [heq, hx]
    exact hlt.not_ge (h.le_of_last hfinished hlast hmade hsame)
  have hafter : after.filter (·.1.coord = coord) = [] := by simpa using hnewer
  rw [deliveries, heq, h.delivered.accepted _ hmem]
  simp [hcoord, hafter]

end Last

/-- **The newest edit of a chunk stays.** When all calls are over, the buffer of the last edit of a
chunk holds what that edit put in place of the old. This is pending, or it is what the receiver
accepted of the chunk last, unless a flush is still under way and has this very buffer. What the
receiver accepted is never edited again. And what is pending of a chunk is never older than a buffer
of it that was edited. -/
theorem newest_edit_stays (h : Reachable world c) :
    (c.Finished → ∀ coord e k, (c.entries coord).getLast? = some e →
      (∀ old : Chunk, old.Valid → e.2.apply old = k) →
      c.book.queue.content e.1 = k ∧ (e.1 ∉ c.book.stage.inFlight →
        c.book.queue.pendingChunk? coord = some k ∨
          (c.deliveries coord).getLast?.map Prod.snd = some k)) ∧
    (∀ delivery ∈ c.book.accepted,
      c.Free delivery.1 ∧ c.book.queue.content delivery.1 = delivery.2) ∧
    ∀ e ∈ c.order, ∀ w ∈ c.book.queue.pendingViews, w.coord = e.1.coord →
      e.1.buffer ≤ w.buffer := by
  have hplaced := h.placed
  refine ⟨fun hfinished coord e k hlast hk => ?_, fun delivery hmem => ?_,
    fun e he w hw hcoord => h.le_of_pending (hplaced.order e he) hw hcoord.symm⟩
  · obtain ⟨horder, hcoord, -⟩ := entries_eq_of_last hlast
    have hcontent := h.content_of_last (hfinished.free _) hlast hk
    refine ⟨hcontent, fun hflight => ?_⟩
    rcases h.book.sound.mem_made.mp (hplaced.order e horder) with
      hsettled | hreplaced | hlost | hout
    · have haccepted : e.1 ∈ c.book.accepted.map Prod.fst := by
        simpa [Daybook.settled, hplaced.taken] using hsettled
      right
      rw [h.last_delivery hfinished hlast haccepted, hcontent]
      rfl
    · obtain ⟨w, hw, hwcoord, hnewer⟩ := h.book.superseded.newer e.1 hreplaced
      exact absurd (h.le_of_last hfinished hlast hw (hwcoord.trans hcoord)) hnewer.not_ge
    · simp [hplaced.lost] at hlost
    · have hpending := (List.mem_append.mp hout).resolve_left hflight
      left
      rw [← hcoord, Queue.pendingChunk?, Queue.mem_pendingViews.mp hpending, ← hcontent]
      rfl
  · exact ⟨h.locked.accepted _ (List.mem_map_of_mem hmem), h.delivered.accepted delivery hmem⟩

theorem Finished.solo (h : c.Finished) {i : Nat} {coord : ChunkCoord} {edit : ChunkEdit} :
    (c.solo i coord edit).Finished := by
  refine forall_turn rfl fun j other hne hj => h j other ?_
  simpa [Crew.enter, Crew.look, Crew.turn, hne] using hj

/-- Only the calls matter. -/
theorem Finished.of_calls (h : c.Finished) (hcalls : c'.calls = c.calls) : c'.Finished := by
  intro i call hi
  exact h i call (hcalls ▸ hi)

theorem finished_single (edit : ChunkEdit) : (single edit).Finished := by
  have hnew : (new "plotworld" : Crew Nat).Finished := nofun
  exact hnew.solo.of_calls rfl

/-- A chunk is edited and handed over. While the receiver has it in its hands, a second call finds
no pending buffer and edits a new one. Then the receiver refuses the first. -/
def overlapped (edit : ChunkEdit) : Crew Nat :=
  let c := (single (.setBlock 0 1 0 .stone)).solo 1 ⟨0, 0⟩ edit
  { c with book := c.book.refuse ⟨⟨0, 0⟩, 0⟩ [] }

theorem reachable_overlapped (edit : ChunkEdit) : Reachable "plotworld" (overlapped edit) := by
  have hsolo := (reachable_single (.setBlock 0 1 0 .stone)).solo (i := 1) rfl ⟨0, 0⟩ edit
    (free_new _).solo
  exact hsolo.tail (Step.flush (Daybook.FlushStep.refuse rfl) nofun)

theorem newest_edit_stays_overlapped :
    let k := (ChunkEdit.setBlock 5 5 5 .dirt).apply (.empty ⟨0, 0⟩)
    let v : View := ⟨⟨0, 0⟩, 1⟩
    ∃ hk : k.Valid,
      let c := overlapped (.replace k hk)
      (c.Finished ∧ (c.entries ⟨0, 0⟩).getLast? = some (v, .replace k hk) ∧
        v ∉ c.book.stage.inFlight) ∧
      c.book.queue.content v = k ∧
      (c.book.queue.pendingChunk? ⟨0, 0⟩ = some k ∨
        (c.deliveries ⟨0, 0⟩).getLast?.map Prod.snd = some k) := by
  intro k v
  refine ⟨(ChunkEdit.setBlock 5 5 5 .dirt).valid_outcome _ (Chunk.valid_empty _), ?_⟩
  intro c
  have hfinished : c.Finished := (finished_single _).solo.of_calls rfl
  have hlast : (c.entries ⟨0, 0⟩).getLast? = some (v, .replace k _) := rfl
  have hflight : v ∉ c.book.stage.inFlight := List.not_mem_nil
  obtain ⟨hcontent, hstays⟩ :=
    (newest_edit_stays (reachable_overlapped _)).1 hfinished _ _ k hlast fun _ _ => rfl
  exact ⟨⟨hfinished, hlast, hflight⟩, hcontent, hstays hflight⟩

end Crew

end Cadastre
