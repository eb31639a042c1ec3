import Cadastre.Proofs.Edit
import Cadastre.Queue.Hosted
/-!
# Cadastre.Proofs.Queue.Pending

**What is pending.** The pending content of a chunk is that of its pending buffer. Editing the
pending buffer of a chunk leaves what the edit made of it, whether the chunk was pending before or
not.
-/

namespace Cadastre

namespace Queue

variable {κ : Type} (q : Queue κ)

/-- The pending content of a chunk. -/
def pendingChunk? (coord : ChunkCoord) : Option Chunk :=
  q.pending[coord]?.map fun buffer => q.content ⟨coord, buffer⟩

/-- The buffer that a chunk is given is the pending one. -/
theorem pending_forChunk (coord : ChunkCoord) :
    (q.forChunk coord).2.pending[coord]? = some (q.forChunk coord).1.buffer := by
  unfold forChunk
  split
  · rename_i buffer hpending
    exact hpending
  · exact Std.TreeMap.getElem?_insert_self

theorem coord_forChunk (coord : ChunkCoord) : (q.forChunk coord).1.coord = coord := by
  unfold forChunk
  split <;> rfl

/-- A buffer holds what was stored in it. -/
theorem content_store {v : View} (hv : v.buffer < q.buffers.size) (c : Chunk) :
    (q.store v c).content v = c := by
  unfold content store
  rw [Array.getD_eq_getD_getElem?, Array.getElem?_setIfInBounds_self_of_lt hv]
  rfl

theorem pendingChunk?_store {v : View} (hv : q.pending[v.coord]? = some v.buffer) (c : Chunk) :
    (q.store v c).pendingChunk? v.coord = some c := by
  have hcontent := q.content_store (q.buffer_lt v.coord v.buffer hv) c
  have hpending : (q.store v c).pending[v.coord]? = some v.buffer := hv
  unfold pendingChunk?
  rw [hpending, Option.map_some, hcontent]

/-- The queue with a chunk as the pending content of its place. -/
def write (q : Queue κ) (coord : ChunkCoord) (c : Chunk) : Queue κ :=
  (q.forChunk coord).2.store (q.forChunk coord).1 c

theorem pendingChunk?_write (coord : ChunkCoord) (c : Chunk) :
    (q.write coord c).pendingChunk? coord = some c := by
  have hpending : (q.forChunk coord).2.pending[(q.forChunk coord).1.coord]? =
      some (q.forChunk coord).1.buffer := by
    rw [q.coord_forChunk coord]
    exact q.pending_forChunk coord
  have hstored := (q.forChunk coord).2.pendingChunk?_store hpending c
  rwa [q.coord_forChunk coord] at hstored

end Queue

/-- An edit of the first of two states leaves the second alone. -/
theorem Edit.onFirst_of_ok {σ τ α : Type} {edit : Edit σ α} {s s' : σ} {a : α}
    (h : edit s = .ok a s') (t : τ) : edit.onFirst (s, t) = .ok a (s', t) := by
  unfold onFirst
  simp only [h]

namespace Hosted

variable {κ σ α : Type}

theorem onQueue_ends {f : Queue κ → α × Queue κ} {h : Hosted κ σ} {Q : α → Hosted κ σ → Prop}
    (hQ : Q (f h.queue).1 { h with queue := (f h.queue).2 }) : Edit.Ends (onQueue f) h Q :=
  ⟨_, _, rfl, hQ⟩

/-- Editing a buffer stores what the edit makes of its content. -/
theorem editBuffer_ends {v : View} {edit : Edit (Chunk × σ) α} {h : Hosted κ σ}
    {Q : α → Chunk × σ → Prop} (hedit : edit.Ends (h.queue.content v, h.host) Q) :
    Edit.Ends (editBuffer v edit) h fun a h' =>
      ∃ c, h'.queue = h.queue.store v c ∧ Q a (c, h'.host) := by
  obtain ⟨a, ⟨c, host⟩, hok, hQ⟩ := hedit
  refine ⟨a, { h with queue := h.queue.store v c, host }, ?_, c, rfl, hQ⟩
  unfold editBuffer
  rw [hok]

/-- Editing a chunk leaves pending what the edit makes of it. -/
theorem withChunk_ends {coord : ChunkCoord} {edit : Edit (Chunk × σ) α} {h : Hosted κ σ}
    {Q : α → Chunk × σ → Prop} (hedit : ∀ c, edit.Ends (c, h.host) Q) :
    Edit.Ends (withChunk coord edit) h fun a h' =>
      ∃ c, h'.queue = h.queue.write coord c ∧ Q a (c, h'.host) := by
  have hfound : Edit.Ends (onQueue fun q => q.forChunk coord) h fun v h' =>
      v = (h.queue.forChunk coord).1 ∧ h'.queue = (h.queue.forChunk coord).2 ∧ h'.host = h.host :=
    onQueue_ends ⟨rfl, rfl, rfl⟩
  refine hfound.bind fun v h' hv => ?_
  obtain ⟨rfl, hqueue, hhost⟩ := hv
  refine (editBuffer_ends (hhost ▸ hedit _)).mono fun a h'' hdone => ?_
  obtain ⟨c, hstore, hQ⟩ := hdone
  rw [hqueue] at hstore
  exact ⟨c, hstore, hQ⟩

end Hosted

end Cadastre
