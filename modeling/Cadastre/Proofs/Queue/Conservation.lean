import Cadastre.Chunk.Writer
import Cadastre.Proofs.Queue.Flush
/-!
# Cadastre.Proofs.Queue.Conservation

**No pending chunk is lost or accepted twice**, and no completion runs twice, over any run of
operations on a queue in which flushes stop wherever their receiver refuses a chunk.

A `Ledger` goes along with the queue and lists what became of its buffers. What an operation does to
these lists is said once (`Operation.moves`): it moves views from one to the next and drops none.
From this the books balance after every step (`Ledger.Balanced.step`), hence after every run.
-/

namespace Cadastre

variable {κ : Type}

/-! ### Journals -/

/-- The chunk that was taken over in an event. -/
def Event.chunk? : Event κ → Option Chunk
  | .accepted _ chunk => some chunk
  | _ => none

/-- The completion that ran in an event. -/
def Event.completion? : Event κ → Option κ
  | .ran completion => some completion
  | _ => none

namespace Journal

/-- The chunks that were taken over. -/
def accepted (j : Journal κ) : List Chunk := j.filterMap Event.chunk?

/-- The completions that ran. -/
def ran (j : Journal κ) : List κ := j.filterMap Event.completion?

@[simp] theorem accepted_append (j j' : Journal κ) :
    accepted (j ++ j') = accepted j ++ accepted j' := List.filterMap_append

@[simp] theorem ran_append (j j' : Journal κ) : ran (j ++ j') = ran j ++ ran j' :=
  List.filterMap_append

@[simp] theorem accepted_refused (world : String) (c : Chunk) (e : Error) :
    accepted ([.refused world c e] : Journal κ) = [] := rfl

@[simp] theorem ran_refused (world : String) (c : Chunk) (e : Error) :
    ran ([.refused world c e] : Journal κ) = [] := rfl

@[simp] theorem accepted_handOver (q : Queue κ) (views : List View) :
    accepted (views.map q.handOver) = views.map q.content := by
  unfold accepted
  rw [List.filterMap_map]
  exact congrFun List.filterMap_eq_map views

@[simp] theorem ran_handOver (q : Queue κ) (views : List View) :
    ran (views.map q.handOver) = [] := by
  unfold ran
  rw [List.filterMap_map, List.filterMap_eq_nil_iff]
  exact fun _ _ => rfl

@[simp] theorem accepted_ran (completions : List κ) :
    accepted (completions.map Event.ran) = [] := by
  unfold accepted
  rw [List.filterMap_map, List.filterMap_eq_nil_iff]
  exact fun _ _ => rfl

@[simp] theorem ran_ran (completions : List κ) :
    ran (completions.map Event.ran) = completions := by
  unfold ran
  rw [List.filterMap_map]
  exact List.filterMap_some

end Journal

/-! ### Operations -/

/-- An operation on a queue. A view may be of any age, an edit may do anything to its chunk and may
fail, and a flush may meet any answers. -/
inductive Operation (κ : Type)
  | forChunk (coord : ChunkCoord)
  | write (v : View) (edit : Edit Chunk Unit)
  | withChunk (coord : ChunkCoord) (edit : Edit Chunk Unit)
  | take (coord : ChunkCoord)
  | addCompletion (completion : κ)
  | flush (answer : Answer κ)

namespace Operation

/-- What an operation leaves, whether it fails or not. -/
def after (h : Hosted κ (Journal κ)) : Operation κ → Hosted κ (Journal κ)
  | forChunk coord => ((Hosted.onQueue fun q => q.forChunk coord).outcome h).2
  | write v edit => ((Hosted.editBuffer v edit.onFirst).outcome h).2
  | withChunk coord edit => ((Hosted.withChunk coord edit.onFirst).outcome h).2
  | take coord => ((Hosted.onQueue fun q => q.take coord).outcome h).2
  | addCompletion completion =>
    ((Hosted.onQueue fun q => ((), q.addCompletion completion)).outcome h).2
  | flush answer => ((Sink.answering answer).flush.outcome h).2

/-- The views of the buffers that an operation makes. -/
def opens (q : Queue κ) : Operation κ → List View
  | forChunk coord | withChunk coord _ => q.opened coord
  | _ => []

/-- The views of the chunks that an operation takes out. -/
def takes (q : Queue κ) : Operation κ → List View
  | take coord => (q.pendingView? coord).toList
  | _ => []

/-- The completions that an operation adds. -/
def adds : Operation κ → List κ
  | addCompletion completion => [completion]
  | _ => []

/-- Whether the chunks that an operation edits keep their place in the world. -/
def KeepsCoord : Operation κ → Prop
  | write _ edit | withChunk _ edit => ∀ c, (edit.outcome c).2.coord = c.coord
  | _ => True

end Operation

/-! ### What operations do -/

/-- The chunks that were taken over between two states, by their views and with what they held: as
many from the front as the journal has more. -/
def handedOver (h h' : Hosted κ (Journal κ)) : List (View × Chunk) :=
  (h.queue.pendingViews.take (h'.host.accepted.length - h.host.accepted.length)).map fun v =>
    (v, h.queue.content v)

/-- What an operation does with views and completions: each view that was pending or was made is
handed over, taken out or pending afterwards, and each completion has run or waits. -/
structure Moves (h h' : Hosted κ (Journal κ)) (opens takes : List View) (adds : List κ) :
    Prop where
  world : h'.queue.world = h.queue.world
  fresh : opens.map View.buffer = List.range' h.queue.buffers.size opens.length
  size : h'.queue.buffers.size = h.queue.buffers.size + opens.length
  views : (opens ++ h.queue.pendingViews).Perm
    ((handedOver h h').map Prod.fst ++ takes ++ h'.queue.pendingViews)
  accepted : h'.host.accepted = h.host.accepted ++ (handedOver h h').map Prod.snd
  completions : h'.host.ran ++ h'.queue.completions = h.host.ran ++ h.queue.completions ++ adds

theorem handedOver_eq {h h' : Hosted κ (Journal κ)} {before rest : List View}
    (horder : h.queue.pendingViews = before ++ rest)
    (hjournal : h'.host.accepted = h.host.accepted ++ before.map h.queue.content) :
    (handedOver h h').map Prod.fst = before ∧
      (handedOver h h').map Prod.snd = before.map h.queue.content := by
  have hviews : h.queue.pendingViews.take
      (h'.host.accepted.length - h.host.accepted.length) = before := by
    rw [hjournal, List.length_append, Nat.add_sub_cancel_left, List.length_map, horder,
      List.take_left]
  unfold handedOver
  rw [hviews, List.map_map, List.map_map]
  exact ⟨List.map_id before, rfl⟩

/-- A step of the queue alone hands nothing over. -/
theorem Queue.Shift.moves {h : Hosted κ (Journal κ)} {q' : Queue κ} {opens takes : List View}
    {adds : List κ} (hs : h.queue.Shift q' opens takes adds) :
    Moves h { h with queue := q' } opens takes adds := by
  obtain ⟨hviews, hchunks⟩ : (handedOver h { h with queue := q' }).map Prod.fst = [] ∧ _ :=
    handedOver_eq rfl (List.append_nil _).symm
  refine ⟨hs.world, hs.fresh, hs.size, ?_, ?_, ?_⟩
  · rw [hviews]
    exact hs.views
  · rw [hchunks]
    exact (List.append_nil _).symm
  · rw [List.append_assoc, ← hs.completions]

namespace Operation

/-- A flush leaves the state in which it went through or stopped. -/
theorem after_flush (answer : Answer κ) (h : Hosted κ (Journal κ)) :
    (∃ report, (Sink.answering answer).flush h = .ok report ((flush answer).after h) ∧
      WentThrough answer h ((flush answer).after h) report) ∨
    ∃ before v after reason, StoppedAt answer h ((flush answer).after h) before v after reason := by
  have hafter : (flush answer).after h = ((Sink.answering answer).flush.outcome h).2 := rfl
  rw [hafter, Edit.outcome]
  rcases Sink.flush_cases answer h with
    ⟨report, h', hok, hdone⟩ | ⟨before, v, after, reason, h', herror, hstopped⟩
  · rw [hok]
    exact .inl ⟨report, rfl, hdone⟩
  · rw [herror]
    exact .inr ⟨before, v, after, reason, hstopped⟩

/-- A flush hands over what was accepted and leaves the rest. -/
theorem moves_flush (answer : Answer κ) (h : Hosted κ (Journal κ)) :
    Moves h ((flush answer).after h) [] [] [] := by
  rcases after_flush answer h with ⟨report, -, hdone⟩ | ⟨before, v, after, reason, hstopped⟩
  · have hjournal : ((flush answer).after h).host.accepted = h.host.accepted ++
        h.queue.pendingViews.map h.queue.content := by
      rw [hdone.journal]
      simp
    obtain ⟨hviews, hchunks⟩ := handedOver_eq (List.append_nil _).symm hjournal
    refine ⟨hdone.world, rfl, congrArg Array.size hdone.buffers, ?_, ?_, ?_⟩
    · rw [hviews, hdone.pending]
      simp
    · rw [hchunks, hjournal]
    · rw [hdone.journal, hdone.completions]
      simp
  · have hjournal : ((flush answer).after h).host.accepted = h.host.accepted ++
        before.map h.queue.content := by
      rw [hstopped.journal]
      simp
    obtain ⟨hviews, hchunks⟩ := handedOver_eq hstopped.order hjournal
    refine ⟨hstopped.world, rfl, congrArg Array.size hstopped.buffers, ?_, ?_, ?_⟩
    · rw [hviews, hstopped.pending, hstopped.order]
      simp
    · rw [hchunks, hjournal]
    · rw [hstopped.journal, hstopped.completions]
      simp

/-- A write stores what the edit makes of the buffer, whether it fails or not. -/
theorem after_write (v : View) (edit : Edit Chunk Unit) (h : Hosted κ (Journal κ)) :
    (write v edit).after h =
      { h with queue := h.queue.store v (edit.outcome (h.queue.content v)).2 } := by
  show ((Hosted.editBuffer v edit.onFirst).outcome h).2 = _
  unfold Edit.outcome Hosted.editBuffer Edit.onFirst
  cases hedit : edit (h.queue.content v) with
  | ok a c => simp only [hedit]
  | error e c => simp only [hedit]

/-- Working with a chunk is asking for it and writing through the view. -/
theorem after_withChunk (coord : ChunkCoord) (edit : Edit Chunk Unit)
    (h : Hosted κ (Journal κ)) :
    (withChunk coord edit).after h =
      (write (h.queue.forChunk coord).1 edit).after ((forChunk coord).after h) := rfl

theorem moves (op : Operation κ) (h : Hosted κ (Journal κ)) :
    Moves h (op.after h) (op.opens h.queue) (op.takes h.queue) op.adds := by
  cases op with
  | forChunk coord => exact (h.queue.shift_forChunk coord).moves
  | write v edit =>
      rw [after_write]
      exact (h.queue.shift_self.store v _).moves
  | withChunk coord edit =>
      rw [after_withChunk, after_write]
      exact ((h.queue.shift_forChunk coord).store _ _).moves
  | take coord => exact (h.queue.shift_take coord).moves
  | addCompletion completion => exact (h.queue.shift_addCompletion completion).moves
  | flush answer => exact moves_flush answer h

/-- Completions run in a flush that goes through, and only there. -/
theorem ran_after (op : Operation κ) (h : Hosted κ (Journal κ)) :
    (op.after h).host.ran = h.host.ran ∨ ∃ answer report h', op = flush answer ∧
      (Sink.answering answer).flush h = .ok report h' := by
  cases op with
  | forChunk coord => exact .inl rfl
  | write v edit =>
      rw [after_write]
      exact .inl rfl
  | withChunk coord edit =>
      rw [after_withChunk, after_write]
      exact .inl rfl
  | take coord => exact .inl rfl
  | addCompletion completion => exact .inl rfl
  | flush answer =>
      rcases after_flush answer h with ⟨report, hok, -⟩ | ⟨before, v, after, reason, hstopped⟩
      · exact .inr ⟨answer, report, _, rfl, hok⟩
      · left
        rw [hstopped.journal]
        simp

/-- What is pending after an operation that makes nothing pending was so before. -/
theorem mem_of_mem_after {op : Operation κ} {h : Hosted κ (Journal κ)}
    (hopens : op.opens h.queue = []) {v : View} (hv : v ∈ (op.after h).queue.pendingViews) :
    v ∈ h.queue.pendingViews := by
  have hviews := (op.moves h).views
  rw [hopens, List.nil_append] at hviews
  exact hviews.mem_iff.mpr (List.mem_append_right _ hv)

/-- Where edits keep the place of a chunk, each pending buffer stays that of its chunk. -/
theorem placed_after {op : Operation κ} (hkeeps : op.KeepsCoord) {h : Hosted κ (Journal κ)}
    (hplaced : h.queue.Placed) : (op.after h).queue.Placed := by
  cases op with
  | forChunk coord => exact hplaced.forChunk coord
  | write v edit =>
      rw [after_write]
      exact hplaced.store v (hkeeps _)
  | withChunk coord edit =>
      rw [after_withChunk, after_write]
      exact (hplaced.forChunk coord).store _ (hkeeps _)
  | take coord =>
      exact hplaced.of_subset (h.queue.buffers_take coord) fun v => mem_of_mem_after rfl
  | addCompletion completion => exact hplaced
  | flush answer =>
      refine hplaced.of_subset ?_ fun v => mem_of_mem_after rfl
      rcases after_flush answer h with ⟨report, -, hdone⟩ | ⟨before, v, after, reason, hstopped⟩
      · exact hdone.buffers
      · exact hstopped.buffers

end Operation

/-- What was handed over was the chunk that it was pending for. -/
theorem coord_of_mem_handedOver {h h' : Hosted κ (Journal κ)} (hplaced : h.queue.Placed)
    {entry : View × Chunk} (hentry : entry ∈ handedOver h h') : entry.2.coord = entry.1.coord := by
  obtain ⟨v, hv, rfl⟩ := List.mem_map.mp hentry
  exact hplaced v (List.mem_of_mem_take hv)

/-! ### Books -/

/-- A queue at work and what became of its buffers: which were made, which were taken over and with
what, and which were taken out; and all completions that were added. -/
structure Ledger (κ : Type) where
  hosted : Hosted κ (Journal κ)
  made : List View
  accepted : List (View × Chunk)
  taken : List View
  added : List κ

namespace Ledger

/-- The ledger of a new queue. -/
def new (world : String) : Ledger κ := ⟨⟨.new world, #[], []⟩, [], [], [], []⟩

/-- The ledger after one more operation. -/
def step (l : Ledger κ) (op : Operation κ) : Ledger κ where
  hosted := op.after l.hosted
  made := l.made ++ op.opens l.hosted.queue
  accepted := l.accepted ++ handedOver l.hosted (op.after l.hosted)
  taken := l.taken ++ op.takes l.hosted.queue
  added := l.added ++ op.adds

/-- The ledger after some operations on a new queue. -/
def run (world : String) (ops : List (Operation κ)) : Ledger κ := ops.foldl step (new world)

/-- The books of a world balance. Every buffer was made once, and each that was made was taken over,
was taken out or is pending. What the receiver took over is what the books say, and each completion
that was added has run or waits, in the order in which they were added. -/
structure Balanced (world : String) (l : Ledger κ) : Prop where
  world : l.hosted.queue.world = world
  buffers : l.made.map View.buffer = List.range l.hosted.queue.buffers.size
  views : l.made.Perm (l.accepted.map Prod.fst ++ l.taken ++ l.hosted.queue.pendingViews)
  accepted : l.hosted.host.accepted = l.accepted.map Prod.snd
  completions : l.hosted.host.ran ++ l.hosted.queue.completions = l.added

variable {world : String} {l : Ledger κ}

theorem balanced_new (world : String) : (new world : Ledger κ).Balanced world :=
  ⟨rfl, rfl, .refl _, rfl, rfl⟩

theorem Balanced.step (h : l.Balanced world) (op : Operation κ) : (l.step op).Balanced world := by
  have hmoves := op.moves l.hosted
  refine ⟨hmoves.world.trans h.world, ?_, ?_, ?_, ?_⟩
  · show (l.made ++ _).map _ = List.range (op.after l.hosted).queue.buffers.size
    rw [List.map_append, h.buffers, hmoves.fresh, hmoves.size, List.range_eq_range',
      List.range_eq_range', ← List.range'_append_1, Nat.zero_add]
  · -- What was pending or is new goes where the operation moves it, the rest stays where it is.
    rw [List.perm_iff_count]
    intro v
    have hbefore := h.views.count_eq v
    have hmoved := hmoves.views.count_eq v
    simp only [Ledger.step, List.map_append, List.count_append] at hbefore hmoved ⊢
    omega
  · show _ = (l.accepted ++ _).map _
    rw [List.map_append, ← h.accepted]
    exact hmoves.accepted
  · show _ = l.added ++ op.adds
    rw [← h.completions]
    exact hmoves.completions

/-- No view is in two places of the books or twice in one. -/
theorem Balanced.nodup (h : l.Balanced world) :
    (l.accepted.map Prod.fst ++ l.taken ++ l.hosted.queue.pendingViews).Nodup := by
  have hmade : l.made.Nodup := by
    refine List.Nodup.of_map View.buffer ?_
    rw [h.buffers]
    exact List.nodup_range
  exact h.views.nodup_iff.mp hmade

/-- What holds of a new ledger and is kept by every operation holds after every run. -/
theorem run_induction {motive : Ledger κ → Prop} (world : String) (ops : List (Operation κ))
    (hnew : motive (new world)) (hstep : ∀ l, ∀ op ∈ ops, motive l → motive (l.step op)) :
    motive (run world ops) := by
  unfold run
  generalize new world = l at hnew
  induction ops generalizing l with
  | nil => exact hnew
  | cons op rest ih =>
      exact ih (fun l op' hop' => hstep l op' (List.mem_cons_of_mem op hop')) (l.step op)
        (hstep l op List.mem_cons_self hnew)

theorem balanced_run (world : String) (ops : List (Operation κ)) :
    (run world ops).Balanced world :=
  run_induction world ops (balanced_new world) fun _ op _ h => h.step op

/-- Edits that keep the place of their chunk hand each chunk over as the one that it was pending for.
-/
theorem placed_run (world : String) {ops : List (Operation κ)}
    (hkeeps : ∀ op ∈ ops, op.KeepsCoord) :
    (run world ops).hosted.queue.Placed ∧
      ∀ entry ∈ (run world ops).accepted, entry.2.coord = entry.1.coord := by
  refine run_induction (motive := fun l => l.hosted.queue.Placed ∧
    ∀ entry ∈ l.accepted, entry.2.coord = entry.1.coord) world ops ?_ ?_
  · exact ⟨fun v hv => absurd hv List.not_mem_nil, fun entry h => absurd h List.not_mem_nil⟩
  · rintro l op hop ⟨hplaced, haccepted⟩
    refine ⟨Operation.placed_after (hkeeps op hop) hplaced, fun entry hentry => ?_⟩
    rcases List.mem_append.mp hentry with hold | hnew
    · exact haccepted entry hold
    · exact coord_of_mem_handedOver hplaced hnew

/-- **Conservation and order in a queue.** After any run of operations on a new queue the books
balance: no view is handed over twice or lost. What is pending is in strictly increasing order, and,
if edits keep the place of their chunk, each buffer holds the chunk it is pending for. The next
flush goes through or stops at a chunk, whatever the receiver answers. The next operation runs
completions only if it is a flush that goes through. -/
theorem run_conserves (world : String) (ops : List (Operation κ)) :
    let l := run world ops
    (l.Balanced world ∧
      (l.accepted.map Prod.fst ++ l.taken ++ l.hosted.queue.pendingViews).Nodup) ∧
    l.hosted.queue.pendingViews.Pairwise View.Before ∧
    ((∀ op ∈ ops, op.KeepsCoord) → l.hosted.queue.Placed ∧
      ∀ entry ∈ l.accepted, entry.2.coord = entry.1.coord) ∧
    (∀ answer,
      (∃ report h', (Sink.answering answer).flush l.hosted = .ok report h' ∧
        WentThrough answer l.hosted h' report) ∨
      ∃ before v after reason h',
        (Sink.answering answer).flush l.hosted = .error (.error reason) h' ∧
        StoppedAt answer l.hosted h' before v after reason) ∧
    ∀ op, (l.step op).hosted.host.ran = l.hosted.host.ran ∨
      ∃ answer report h', op = .flush answer ∧
        (Sink.answering answer).flush l.hosted = .ok report h' := by
  intro l
  have hbalanced : l.Balanced world := balanced_run world ops
  exact ⟨⟨hbalanced, hbalanced.nodup⟩, l.hosted.queue.sorted_pendingViews, placed_run world,
    fun answer => Sink.flush_cases answer l.hosted, fun op => op.ran_after l.hosted⟩

/-- A receiver that refuses the second chunk that it sees. -/
def refusesSecond : Answer Nat := fun j _ _ =>
  if j.length = 1 then .error (.sink "disk full") else .ok ()

/-- Two chunks of which the second is refused at first, then written to through the view it had and
handed over. -/
def retried : List (Operation Nat) :=
  [.forChunk ⟨2, 0⟩, .withChunk ⟨-1, 5⟩ (Chunk.setBiome 0 0 4), .addCompletion 7,
    .flush refusesSecond, .write ⟨⟨2, 0⟩, 0⟩ (Chunk.setBiome 0 0 3), .flush refusesSecond]

theorem run_conserves_retried :
    (∀ op ∈ retried, op.KeepsCoord) ∧
      (run "plotworld" retried).accepted.map Prod.fst = [⟨⟨-1, 5⟩, 1⟩, ⟨⟨2, 0⟩, 0⟩] ∧
      (run "plotworld" retried).accepted.map (fun entry => entry.2.biome? 0 0) =
        [some 4, some 3] ∧
      (run "plotworld" retried).hosted.host.ran = [7] ∧
      ∀ entry ∈ (run "plotworld" retried).accepted, entry.2.coord = entry.1.coord := by
  have hkeeps : ∀ op ∈ retried, op.KeepsCoord := by
    simp only [retried, List.forall_mem_cons, Operation.KeepsCoord]
    exact ⟨trivial, fun _ => rfl, trivial, trivial, fun _ => rfl, trivial, nofun⟩
  obtain ⟨-, -, hplaced, -⟩ := run_conserves "plotworld" retried
  exact ⟨hkeeps, rfl, rfl, rfl, (hplaced hkeeps).2⟩

end Ledger

end Cadastre
