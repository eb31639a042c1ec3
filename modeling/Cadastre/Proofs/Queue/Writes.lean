import Cadastre.Proofs.Chunk.Blocks
import Cadastre.Proofs.Chunk.Position
import Cadastre.Proofs.Queue.Whereabouts
/-!
# Cadastre.Proofs.Queue.Writes

**What becomes of writes when a flush fails.**

A buffer holds what was written to it, in the order of the writes, wherever its view is
(`Daybook.Recorded`). A refused chunk is put back with its buffer, and so with every write through
its views, those included that came while it was on its way. But there is room for one buffer of a
chunk only: if somebody asked for the chunk while it was on its way, the newer buffer stays, and what
was written to the older one is pending no more.
-/

namespace Cadastre

variable {κ : Type}

/-! ### Blocks that edits put and spare -/

namespace ChunkEdit

theorem valid_applyAll (edits : List ChunkEdit) {c : Chunk} (hc : c.Valid) :
    (applyAll edits c).Valid := by
  induction edits generalizing c with
  | nil => exact hc
  | cons e rest ih => exact ih (e.valid_outcome c hc)

/-- Whatever a chunk holds, after the edit it has a block at a place. -/
def Puts (e : ChunkEdit) (p : Place) (b : Block) : Prop :=
  ∀ c : Chunk, c.Valid → (e.apply c).block p = b

/-- An edit leaves the block at a place as it is. -/
def Spares (e : ChunkEdit) (p : Place) : Prop :=
  ∀ c : Chunk, c.Valid → (e.apply c).block p = c.block p

theorem block_applyAll_of_spares {edits : List ChunkEdit} {p : Place}
    (h : ∀ e ∈ edits, e.Spares p) {c : Chunk} (hc : c.Valid) :
    (applyAll edits c).block p = c.block p := by
  induction edits generalizing c with
  | nil => rfl
  | cons e rest ih =>
      have hrest := ih (fun x hx => h x (List.mem_cons_of_mem e hx)) (e.valid_outcome c hc)
      exact hrest.trans (h e List.mem_cons_self c hc)

/-- The block that was put last is there. -/
theorem block_applyAll_of_puts {before after : List ChunkEdit} {e : ChunkEdit} {p : Place}
    {b : Block} (he : e.Puts p b) (hafter : ∀ x ∈ after, x.Spares p) {c : Chunk} (hc : c.Valid) :
    (applyAll (before ++ e :: after) c).block p = b := by
  have hbefore := valid_applyAll before hc
  have hlast := block_applyAll_of_spares hafter (e.valid_outcome _ hbefore)
  rw [applyAll, List.foldl_append, List.foldl_cons]
  exact hlast.trans (he _ hbefore)

/-- The edit that sets one block. -/
def setBlock (x y z : Int) (b : Block) : ChunkEdit where
  run := Chunk.setBlock x y z b
  valid_outcome c hc := by
    by_cases hinside : Chunk.Inside x y z
    · obtain ⟨p, hp⟩ := Chunk.exists_place hinside
      rw [Edit.outcome, Chunk.setBlock_of_place hp]
      exact (Chunk.put_spec hc p b).1
    · rw [Edit.outcome, Chunk.setBlock_of_error (Chunk.place_eq_error hinside)]
      exact hc

theorem apply_setBlock (p : Place) (b : Block) (c : Chunk) :
    (setBlock p.x p.y p.z b).apply c = c.put p b := by
  simp [apply, setBlock, Edit.outcome, Chunk.setBlock_of_place (Chunk.place_self p)]

theorem puts_setBlock (p : Place) (b : Block) : (setBlock p.x p.y p.z b).Puts p b := by
  intro c hc
  simp [apply_setBlock, Chunk.put_spec hc]

theorem spares_setBlock {p q : Place} (h : q ≠ p) (b : Block) :
    (setBlock p.x p.y p.z b).Spares q := by
  intro c hc
  simp [apply_setBlock, Chunk.put_spec hc, h]

end ChunkEdit

/-! ### What the buffers hold -/

namespace Queue

variable {q : Queue κ} {v w : View}

/-- Views of one buffer show the same. -/
theorem content_congr (h : v.buffer = w.buffer) (hw : w.buffer < q.buffers.size) :
    q.content v = q.content w := by
  simp [content, h, hw]

theorem content_store_of_lt (hv : v.buffer < q.buffers.size) (c : Chunk) (w : View) :
    (q.store v c).content w = if v.buffer = w.buffer then c else q.content w := by
  by_cases hsame : v.buffer = w.buffer
  · simp [content, store, hsame, hsame ▸ hv]
  · simp [content, store, Array.getD_eq_getD_getElem?, hsame]

theorem buffers_store_of_le (hv : q.buffers.size ≤ v.buffer) (c : Chunk) :
    (q.store v c).buffers = q.buffers :=
  Array.setIfInBounds_eq_of_size_le hv

/-- A buffer that exists is not touched when a chunk is asked for. -/
theorem content_forChunk (coord : ChunkCoord) (hw : w.buffer < q.buffers.size) :
    (q.forChunk coord).2.content w = q.content w := by
  cases hpending : q.pending[coord]? with
  | some buffer => rw [(forChunk_of_some hpending).1]
  | none => simp [content, (forChunk_of_none hpending).2.2.1, Array.getElem_push, hw, hw.le]

/-- A buffer that is made is a new one. -/
theorem le_of_mem_opened {coord : ChunkCoord} (hv : v ∈ q.opened coord) :
    q.buffers.size ≤ v.buffer := by
  have hbuffer := List.mem_map_of_mem (f := View.buffer) hv
  rw [(q.shift_forChunk coord).fresh, List.mem_range'_1] at hbuffer
  exact hbuffer.1

theorem coord_of_mem_opened {coord : ChunkCoord} (hv : v ∈ q.opened coord) : v.coord = coord := by
  cases hpending : q.pending[coord]? with
  | some buffer => simp [(forChunk_of_some hpending).2] at hv
  | none =>
      rw [(forChunk_of_none hpending).1, List.mem_singleton] at hv
      rw [hv]

/-- A buffer that is made is empty. -/
theorem content_of_mem_opened {coord : ChunkCoord} (hv : v ∈ q.opened coord) :
    (q.forChunk coord).2.content v = .empty v.coord := by
  cases hpending : q.pending[coord]? with
  | some buffer => simp [(forChunk_of_some hpending).2] at hv
  | none =>
      obtain ⟨hopened, -, hbuffers, -⟩ := forChunk_of_none hpending
      rw [hopened, List.mem_singleton] at hv
      simp [content, hbuffers, hv]

end Queue

namespace Daybook

variable {d d' : Daybook κ}

/-- What was written to a buffer, in order. -/
def written (d : Daybook κ) (buffer : BufferId) : List ChunkEdit :=
  (d.writes.filter (·.1 = buffer)).map Prod.snd

@[simp] theorem written_forChunk (coord : ChunkCoord) (buffer : BufferId) :
    (d.use (.forChunk coord)).written buffer = d.written buffer := by
  simp [written, Daybook.use, Use.writes]

theorem written_write {v : View} (hv : v.buffer < d.queue.buffers.size) (edit : ChunkEdit)
    (buffer : BufferId) : (d.use (.write v edit)).written buffer =
      if v.buffer = buffer then d.written buffer ++ [edit] else d.written buffer := by
  by_cases hsame : v.buffer = buffer
  · simp [written, Daybook.use, Use.writes, hsame, hsame ▸ hv]
  · simp [written, Daybook.use, Use.writes, hv, hsame]

/-- A daybook in which every write is in its buffer. -/
structure Recorded (d : Daybook κ) : Prop where
  buffer_lt : ∀ w ∈ d.writes, w.1 < d.queue.buffers.size
  content : ∀ v ∈ d.made,
    d.queue.content v = ChunkEdit.applyAll (d.written v.buffer) (.empty v.coord)

namespace Recorded

theorem new (world : String) : (new world : Daybook κ).Recorded := by
  constructor <;> simp [Daybook.new]

/-- Only the buffers, what was written and what was made matter. -/
theorem of_frame (h : d.Recorded) (hbuffers : d'.queue.buffers = d.queue.buffers)
    (hbooks : (d'.writes, d'.made) = (d.writes, d.made)) : d'.Recorded := by
  obtain ⟨hwrites, hmade⟩ := Prod.mk.inj hbooks
  constructor
  case buffer_lt =>
    rw [hwrites, hbuffers]
    exact h.buffer_lt
  case content =>
    intro v hv
    rw [Queue.content, hbuffers, written, hwrites]
    exact h.content v (hmade ▸ hv)

/-- Nothing was written to a buffer that does not exist yet. -/
theorem written_eq_nil (h : d.Recorded) {buffer : BufferId}
    (hbuffer : d.queue.buffers.size ≤ buffer) : d.written buffer = [] := by
  simp only [written, List.map_eq_nil_iff, List.filter_eq_nil_iff, decide_eq_true_eq]
  exact fun w hw heq => absurd (h.buffer_lt w hw) (heq ▸ hbuffer.not_gt)

theorem forChunk (hd : d.Sound) (h : d.Recorded) (coord : ChunkCoord) :
    (d.use (.forChunk coord)).Recorded := by
  constructor
  case buffer_lt =>
    intro w hw
    have hsize := (d.queue.shift_forChunk coord).size
    have hlt := h.buffer_lt w (by simpa [Daybook.use, Use.writes] using hw)
    exact hlt.trans_le (by simp [Daybook.use, Use.after, hsize])
  case content =>
    intro v hv
    rw [written_forChunk]
    rcases List.mem_append.mp hv with hold | hnew
    · exact (Queue.content_forChunk coord (hd.buffer_lt hold)).trans (h.content v hold)
    · rw [h.written_eq_nil (Queue.le_of_mem_opened hnew)]
      exact Queue.content_of_mem_opened hnew

theorem write (hd : d.Sound) (h : d.Recorded) (v : View) (edit : ChunkEdit) :
    (d.use (.write v edit)).Recorded := by
  have hmade : (d.use (.write v edit)).made = d.made := List.append_nil _
  by_cases hv : v.buffer < d.queue.buffers.size
  · have hwrites : (d.use (.write v edit)).writes = d.writes ++ [(v.buffer, edit)] := by
      simp [Daybook.use, Use.writes, hv]
    constructor
    case buffer_lt =>
      intro w hw
      have hsize : (d.use (.write v edit)).queue.buffers.size = d.queue.buffers.size :=
        Array.size_setIfInBounds ..
      rw [hwrites, List.mem_append, List.mem_singleton] at hw
      rw [hsize]
      rcases hw with hw | rfl
      · exact h.buffer_lt w hw
      · exact hv
    case content =>
      intro w hw
      rw [hmade] at hw
      show (d.queue.store v _).content w = _
      rw [Queue.content_store_of_lt hv, written_write hv]
      by_cases hsame : v.buffer = w.buffer
      · rw [if_pos hsame, if_pos hsame, Queue.content_congr hsame (hd.buffer_lt hw),
          h.content w hw, ChunkEdit.applyAll_concat]
      · rw [if_neg hsame, if_neg hsame, h.content w hw]
  · refine h.of_frame (Queue.buffers_store_of_le (not_lt.mp hv) _) ?_
    rw [hmade]
    simp [Daybook.use, Use.writes, hv]

theorem use (hd : d.Sound) (h : d.Recorded) (u : Use κ) : (d.use u).Recorded := by
  cases u with
  | forChunk coord => exact h.forChunk hd coord
  | write v edit => exact h.write hd v edit
  | take coord =>
      refine h.of_frame (d.queue.buffers_take coord) ?_
      simp [Daybook.use, Use.writes, Use.opens]
  | addCompletion completion =>
      refine h.of_frame rfl ?_
      simp [Daybook.use, Use.writes, Use.opens]

theorem flush (h : d.Recorded) (hstep : FlushStep d d') : d'.Recorded := by
  obtain ⟨hbuffers, hmade, hwrites, -, -⟩ := hstep.keeps
  exact h.of_frame hbuffers (by rw [hmade, hwrites])

theorem step (hd : d.Sound) (h : d.Recorded) (hstep : Step d d') : d'.Recorded := by
  cases hstep with
  | use u => exact h.use hd u
  | flush hflush => exact h.flush hflush
  | abort _ => exact h.of_frame rfl rfl

end Recorded

/-- **Every write is in its buffer**, in whatever state the steps lead to. -/
theorem Reachable.recorded {world : String} (h : Reachable world d) : d.Recorded := by
  induction h with
  | refl => exact .new world
  | tail hsteps hstep ih => exact ih.step (Reachable.sound hsteps) hstep

/-! ### What a flush took -/

/-- While a flush hands chunks over, what it took was accepted or is on its way. -/
def Handing (d : Daybook κ) : Prop :=
  d.stage.isHanding = true → ∀ v ∈ d.batch, v ∈ d.accepted.map Prod.fst ∨ v ∈ d.stage.inFlight

theorem Handing.step (h : d.Handing) (hstep : Step d d') : d'.Handing := by
  intro hhanding v hv
  cases hstep with
  | use u => exact h hhanding v hv
  | abort _ => cases hhanding
  | flush hflush =>
      cases hflush with
      | start _ => exact .inr hv
      | offer hstage =>
          have hbefore := h (by rw [hstage]; rfl) v hv
          rwa [hstage] at hbefore
      | accept hstage =>
          have hbefore := h (by rw [hstage]; rfl) v hv
          simp only [hstage, Stage.inFlight_offering, List.mem_cons] at hbefore
          simp only [accept, List.map_append, List.mem_append, List.map_cons, List.map_nil,
            List.mem_singleton, Stage.inFlight_handing]
          tauto
      | refuse _ => cases hhanding
      | release _ => cases hhanding
      | complete _ => cases hhanding
      | finish _ => cases hhanding

theorem Reachable.handing {world : String} (h : Reachable world d) : d.Handing := by
  induction h with
  | refl => simp [Handing, Daybook.new]
  | tail _ hstep ih => exact ih.step hstep

/-! ### After a refusal -/

/-- The last write through views of a buffer that says anything about a place put a block there. -/
def LastPut (d : Daybook κ) (buffer : BufferId) (p : Place) (b : Block) : Prop :=
  ∃ before e after, d.writes = before ++ (buffer, e) :: after ∧ e.Puts p b ∧
    ∀ w ∈ after, w.1 = buffer → w.2.Spares p

theorem Recorded.block_of_lastPut (h : d.Recorded) {v : View} (hv : v ∈ d.made) {p : Place}
    {b : Block} (hlast : d.LastPut v.buffer p b) : (d.queue.content v).block p = b := by
  obtain ⟨before, e, after, hwrites, hputs, hspares⟩ := hlast
  have hwritten : d.written v.buffer = (before.filter (·.1 = v.buffer)).map Prod.snd ++
      e :: (after.filter (·.1 = v.buffer)).map Prod.snd := by
    simp [written, hwrites]
  rw [h.content v hv, hwritten]
  refine ChunkEdit.block_applyAll_of_puts hputs (fun x hx => ?_) (Chunk.valid_empty _)
  obtain ⟨w, hw, rfl⟩ := List.mem_map.mp hx
  obtain ⟨hmem, hbuffer⟩ := List.mem_filter.mp hw
  exact hspares w hmem (by simpa using hbuffer)

/-- **What is pending after a refusal** of a chunk that the flush took and the receiver did not
accept: its own buffer if nobody had asked for the chunk in the meantime, otherwise the newer buffer
that was made then. The pending buffer holds what was ever written through its own views, each place
as the last of these writes left it. -/
theorem refusal_keeps {world : String} {u v : View} {chunk : Chunk} {rest : List View}
    (h : Reachable world d) (hstage : d.stage = .offering v chunk rest) (hu : u ∈ d.batch)
    (haccepted : u ∉ d.accepted.map Prod.fst) :
    ∃ w ∈ (d.refuse v rest).queue.pendingViews, w.coord = u.coord ∧ u.buffer ≤ w.buffer ∧
      (w = u ↔ d.queue.pendingView? u.coord = none) ∧
      (d.refuse v rest).queue.content w =
        ChunkEdit.applyAll (d.written w.buffer) (.empty w.coord) ∧
      ∀ p b, d.LastPut w.buffer p b → ((d.refuse v rest).queue.content w).block p = b := by
  have hsound := h.sound
  have hrecorded := h.recorded
  obtain ⟨hsorted, hbuffer⟩ := hsound.inFlight_spec
  have hflight : u ∈ d.stage.inFlight :=
    (h.handing (by rw [hstage]; rfl) u hu).resolve_left haccepted
  rw [hstage, Stage.inFlight_offering] at hsorted hbuffer hflight
  have hback : ∀ w : View, w ∈ (d.refuse v rest).queue.pendingViews ↔ _ := fun w =>
    Queue.mem_pendingViews_putBack hsorted hbuffer
  -- Putting back leaves every buffer as it is.
  have hcontent : ∀ w : View, (d.refuse v rest).queue.content w = d.queue.content w := fun w => by
    rw [Queue.content, Queue.content, Daybook.refuse, (d.queue.putBack_frame _).2.1]
  have hholds : ∀ w ∈ d.outstanding, (d.refuse v rest).queue.content w =
      ChunkEdit.applyAll (d.written w.buffer) (.empty w.coord) ∧
      ∀ p b, d.LastPut w.buffer p b → ((d.refuse v rest).queue.content w).block p = b := by
    intro w hw
    have hmade : w ∈ d.made := hsound.mem_made.mpr (.inr (.inr (.inr hw)))
    rw [hcontent]
    exact ⟨hrecorded.content w hmade, fun p b => hrecorded.block_of_lastPut hmade⟩
  cases hnow : d.queue.pendingView? u.coord with
  | none =>
      refine ⟨u, (hback u).mpr (.inr ⟨hflight, hnow⟩), rfl, le_rfl, by simp, hholds u ?_⟩
      exact List.mem_append_left _ (by rwa [hstage])
  | some w =>
      obtain ⟨hpending, hcoord⟩ := Queue.pendingView?_eq_some.mp hnow
      have hsuccession := hsound.succession
      simp only [outstanding, hstage, Stage.inFlight_offering] at hsuccession
      rw [List.pairwise_append, List.pairwise_append] at hsuccession
      have hnewer : u.buffer < w.buffer :=
        hsuccession.2.1.2.2 u hflight w hpending hcoord.symm
      refine ⟨w, (hback w).mpr (.inl hpending), hcoord, hnewer.le, ?_, hholds w ?_⟩
      · simp only [reduceCtorEq, iff_false]
        rintro rfl
        exact hnewer.false
      · exact List.mem_append_right _ hpending

/-- A flush that is refused its first chunk, at (0, 0). The chunk at (1, 0) was taken with it and
holds stone. Between the two the receiver asks for that chunk and sets a block in it. -/
def overtaken : Daybook Nat :=
  let d : Daybook Nat := (new "plotworld").use (.forChunk ⟨1, 0⟩)
  let d := (d.use (.write ⟨⟨1, 0⟩, 0⟩ (.setBlock 0 1 0 .stone))).use (.forChunk ⟨0, 0⟩)
  let d := (d.start.offer ⟨⟨0, 0⟩, 1⟩ [⟨⟨1, 0⟩, 0⟩]).use (.forChunk ⟨1, 0⟩)
  d.use (.write ⟨⟨1, 0⟩, 2⟩ (.setBlock 5 5 5 .dirt))

theorem reachable_overtaken : Reachable "plotworld" overtaken :=
  Relation.ReflTransGen.refl
    |>.tail (.use _ (.forChunk ⟨1, 0⟩))
    |>.tail (.use _ (.write ⟨⟨1, 0⟩, 0⟩ (.setBlock 0 1 0 .stone)))
    |>.tail (.use _ (.forChunk ⟨0, 0⟩))
    |>.tail (.flush (.start rfl))
    |>.tail (.flush (.offer (show Daybook.stage _ = .handing [⟨⟨0, 0⟩, 1⟩, ⟨⟨1, 0⟩, 0⟩] from rfl)))
    |>.tail (.use _ (.forChunk ⟨1, 0⟩))
    |>.tail (.use _ (.write ⟨⟨1, 0⟩, 2⟩ (.setBlock 5 5 5 .dirt)))

theorem stage_overtaken :
    overtaken.stage = .offering ⟨⟨0, 0⟩, 1⟩ (.empty ⟨0, 0⟩) [⟨⟨1, 0⟩, 0⟩] := rfl

/-- **A refusal may drop a write**, though its chunk was pending when the flush began, was not
accepted, and the place was not written again. -/
theorem refusal_drops :
    let u : View := ⟨⟨1, 0⟩, 0⟩
    let p : Place := ⟨0, ⟨1, by decide⟩, 0⟩
    Reachable "plotworld" overtaken ∧ u ∈ overtaken.batch ∧ overtaken.accepted = [] ∧
    overtaken.LastPut u.buffer p .stone ∧
    (∀ w ∈ overtaken.writes, w.1 ≠ u.buffer → w.2.Spares p) ∧
    ((overtaken.refuse ⟨⟨0, 0⟩, 1⟩ [u]).queue.pendingChunk? u.coord).map (·.block p) = some .air := by
  intro u p
  have hwrites : overtaken.writes =
      [(0, .setBlock 0 1 0 .stone), (2, .setBlock 5 5 5 .dirt)] := rfl
  have hspares : (ChunkEdit.setBlock 5 5 5 .dirt).Spares p :=
    ChunkEdit.spares_setBlock (p := ⟨5, ⟨5, by decide⟩, 5⟩) (by decide) .dirt
  refine ⟨reachable_overtaken, by decide, rfl, ⟨[], _, _, hwrites, ?_, ?_⟩, ?_, ?_⟩
  · exact ChunkEdit.puts_setBlock p .stone
  · simp [u]
  · simp [hwrites, u, hspares]
  · have hpending : (overtaken.refuse ⟨⟨0, 0⟩, 1⟩ [u]).queue.pendingChunk? u.coord =
        some ((ChunkEdit.setBlock 5 5 5 .dirt).apply (.empty u.coord)) := rfl
    rw [hpending, Option.map_some, hspares _ (Chunk.valid_empty _), Chunk.block_empty]

/-- The block at (5, 5, 5) of the chunk at (1, 0) is kept, in the newer buffer. -/
theorem refusal_keeps_overtaken :
    let u : View := ⟨⟨1, 0⟩, 0⟩
    let d := overtaken.refuse ⟨⟨0, 0⟩, 1⟩ [u]
    u ∈ overtaken.batch ∧ u ∉ overtaken.accepted.map Prod.fst ∧
    ∃ w ∈ d.queue.pendingViews, w.coord = u.coord ∧ u.buffer ≤ w.buffer ∧
      (w = u ↔ overtaken.queue.pendingView? u.coord = none) ∧
      d.queue.content w = ChunkEdit.applyAll (overtaken.written w.buffer) (.empty w.coord) ∧
      ∀ p b, overtaken.LastPut w.buffer p b → (d.queue.content w).block p = b :=
  ⟨by decide, by decide,
    refusal_keeps reachable_overtaken stage_overtaken (by decide) (by decide)⟩

end Daybook

end Cadastre
