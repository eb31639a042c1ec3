import Cadastre.Proofs.Queue.Pending
import Mathlib.Data.List.Sort
/-!
# Cadastre.Proofs.Queue.Views

**The pending chunks as a list of views**, in the order in which a flush takes them.

The order is strict, so the list is known from its members, and a list of views that is put back
into an empty queue comes out as it went in (`pendingViews_putBack`). An operation that makes one
more chunk pending, or one chunk less, changes the list by one view (`pendingViews_perm_cons`).
-/

namespace Cadastre

/-! ### The order of a flush -/

/-- Whether the chunk of a view is handed over before that of another. -/
def View.Before (v w : View) : Prop := compare v.coord w.coord = .lt

instance : Std.Irrefl View.Before where
  irrefl v h := by
    rw [View.Before, Std.ReflOrd.compare_self] at h
    cases h

instance : Std.Antisymm View.Before where
  antisymm _ _ h h' := absurd h' (Std.OrientedCmp.not_lt_of_lt h)

theorem View.Before.coord_ne {v w : View} (h : v.Before w) : v.coord ≠ w.coord := by
  intro heq
  rw [Before, heq, Std.ReflOrd.compare_self] at h
  cases h

namespace Queue

variable {κ : Type}

/-- The views of the pending chunks, as a flush takes them. -/
def pendingViews (q : Queue κ) : List View := q.takePending.1

variable {q q' : Queue κ}

theorem mem_pendingViews {v : View} :
    v ∈ q.pendingViews ↔ q.pending[v.coord]? = some v.buffer := by
  unfold pendingViews takePending
  rw [List.mem_map, ← Std.TreeMap.mem_toList_iff_getElem?_eq_some]
  constructor
  · rintro ⟨_, hmem, rfl⟩
    exact hmem
  · intro hmem
    exact ⟨_, hmem, rfl⟩

theorem isPending_iff {v : View} : q.isPending v = true ↔ v ∈ q.pendingViews := by
  simp [isPending, mem_pendingViews]

theorem sorted_pendingViews (q : Queue κ) : q.pendingViews.Pairwise View.Before :=
  Std.TreeMap.ordered_keys_toList.map _ fun _ _ h => h

theorem nodup_pendingViews (q : Queue κ) : q.pendingViews.Nodup := q.sorted_pendingViews.nodup

/-- A pending chunk has its buffer. -/
theorem buffer_lt_of_mem {v : View} (hv : v ∈ q.pendingViews) : v.buffer < q.buffers.size :=
  q.buffer_lt v.coord v.buffer (mem_pendingViews.mp hv)

/-- Two pending views of one chunk are the same. -/
theorem eq_of_mem_pendingViews {v w : View} (hv : v ∈ q.pendingViews) (hw : w ∈ q.pendingViews)
    (hcoord : v.coord = w.coord) : v = w := by
  rw [mem_pendingViews] at hv hw
  rw [hcoord, hw] at hv
  cases v; cases w
  cases hcoord
  cases hv
  rfl

@[simp] theorem pendingViews_takePending (q : Queue κ) : q.takePending.2.pendingViews = [] := by
  rw [← List.isEmpty_iff, pendingViews, takePending, takePending, List.isEmpty_map,
    Std.TreeMap.isEmpty_toList]
  rfl

@[simp] theorem pendingViews_takeCompletions (q : Queue κ) :
    q.takeCompletions.2.pendingViews = q.pendingViews := rfl

/-- One more chunk is pending. -/
theorem pendingViews_perm_cons {v : View} (hnew : q.pending[v.coord]? = none)
    (hadd : ∀ coord, q'.pending[coord]? =
      if v.coord = coord then some v.buffer else q.pending[coord]?) :
    q'.pendingViews.Perm (v :: q.pendingViews) := by
  have hfresh : v ∉ q.pendingViews := by
    rw [mem_pendingViews, hnew]
    exact (Option.some_ne_none _).symm
  rw [List.perm_ext_iff_of_nodup q'.nodup_pendingViews
    (List.nodup_cons.mpr ⟨hfresh, q.nodup_pendingViews⟩)]
  intro w
  rw [List.mem_cons, mem_pendingViews, mem_pendingViews, hadd]
  by_cases hcoord : v.coord = w.coord
  · rw [if_pos hcoord, ← hcoord, hnew]
    constructor
    · intro hbuffer
      cases v; cases w
      cases hcoord
      cases hbuffer
      exact .inl rfl
    · rintro (rfl | hnone)
      · rfl
      · cases hnone
  · rw [if_neg hcoord]
    constructor
    · exact .inr
    · rintro (rfl | hmem)
      · exact absurd rfl hcoord
      · exact hmem

/-! ### Operations without a flush -/

/-- A step of a queue that hands nothing over: some views are made, some are taken out, and some
completions are added. -/
structure Shift (q q' : Queue κ) (opens takes : List View) (adds : List κ) : Prop where
  world : q'.world = q.world
  fresh : opens.map View.buffer = List.range' q.buffers.size opens.length
  size : q'.buffers.size = q.buffers.size + opens.length
  views : (opens ++ q.pendingViews).Perm (takes ++ q'.pendingViews)
  completions : q'.completions = q.completions ++ adds

theorem shift_self (q : Queue κ) : q.Shift q [] [] [] :=
  ⟨rfl, rfl, rfl, .refl _, (List.append_nil _).symm⟩

/-- Writing to a buffer does not matter to where the views go. -/
theorem Shift.store {opens takes : List View} {adds : List κ} (h : q.Shift q' opens takes adds)
    (v : View) (c : Chunk) : q.Shift (q'.store v c) opens takes adds :=
  ⟨h.world, h.fresh, (Array.size_setIfInBounds ..).trans h.size, h.views, h.completions⟩

theorem shift_addCompletion (q : Queue κ) (completion : κ) :
    q.Shift (q.addCompletion completion) [] [] [completion] :=
  ⟨rfl, rfl, rfl, .refl _, rfl⟩

/-- The view of a chunk that is pending. -/
def pendingView? (q : Queue κ) (coord : ChunkCoord) : Option View :=
  q.pending[coord]?.map fun buffer => ⟨coord, buffer⟩

theorem pendingView?_eq_some {coord : ChunkCoord} {w : View} :
    q.pendingView? coord = some w ↔ w ∈ q.pendingViews ∧ w.coord = coord := by
  simp only [pendingView?, Option.map_eq_some_iff, mem_pendingViews]
  constructor
  · rintro ⟨buffer, hbuffer, rfl⟩
    exact ⟨hbuffer, rfl⟩
  · rintro ⟨hw, rfl⟩
    exact ⟨w.buffer, hw, rfl⟩

/-- The view that a chunk is given, if it was not pending before. -/
def opened (q : Queue κ) (coord : ChunkCoord) : List View :=
  if (q.pendingView? coord).isSome then [] else [(q.forChunk coord).1]

theorem forChunk_of_some {coord : ChunkCoord} {buffer : BufferId}
    (h : q.pending[coord]? = some buffer) :
    q.forChunk coord = (⟨coord, buffer⟩, q) ∧ q.opened coord = [] := by
  unfold opened pendingView? forChunk
  rw [h]
  exact ⟨rfl, rfl⟩

/-- A chunk that was not pending gets the next buffer, which is empty. -/
theorem forChunk_of_none {coord : ChunkCoord} (h : q.pending[coord]? = none) :
    q.opened coord = [⟨coord, q.buffers.size⟩] ∧ (q.forChunk coord).2.world = q.world ∧
      (q.forChunk coord).2.buffers = q.buffers.push (.empty coord) ∧
      (q.forChunk coord).2.completions = q.completions ∧
      (q.forChunk coord).2.pendingViews.Perm (⟨coord, q.buffers.size⟩ :: q.pendingViews) := by
  unfold opened pendingView? forChunk
  rw [h]
  refine ⟨rfl, rfl, rfl, rfl, pendingViews_perm_cons h fun other => ?_⟩
  dsimp only
  rw [Std.TreeMap.getElem?_insert]
  simp only [Std.LawfulEqCmp.compare_eq_iff_eq]

/-- The view that a chunk is given is pending. -/
theorem forChunk_mem_pendingViews (q : Queue κ) (coord : ChunkCoord) :
    (q.forChunk coord).1 ∈ (q.forChunk coord).2.pendingViews := by
  rw [mem_pendingViews, q.coord_forChunk]
  exact q.pending_forChunk coord

theorem shift_forChunk (q : Queue κ) (coord : ChunkCoord) :
    q.Shift (q.forChunk coord).2 (q.opened coord) [] [] := by
  cases hpending : q.pending[coord]? with
  | some buffer =>
      obtain ⟨hsame, hopened⟩ := forChunk_of_some hpending
      rw [hsame, hopened]
      exact q.shift_self
  | none =>
      obtain ⟨hopened, hworld, hbuffers, hcompletions, hviews⟩ := forChunk_of_none hpending
      rw [hopened]
      refine ⟨hworld, rfl, ?_, hviews.symm, ?_⟩
      · rw [hbuffers]
        exact Array.size_push _
      · rw [hcompletions, List.append_nil]

/-- Taking a chunk out leaves the buffers as they are. -/
theorem buffers_take (q : Queue κ) (coord : ChunkCoord) :
    (q.take coord).2.buffers = q.buffers := by
  unfold take
  split <;> rfl

theorem shift_take (q : Queue κ) (coord : ChunkCoord) :
    q.Shift (q.take coord).2 [] (q.pendingView? coord).toList [] := by
  unfold pendingView? take
  split
  case h_1 buffer hpending =>
      rw [hpending]
      refine ⟨rfl, rfl, rfl, pendingViews_perm_cons ?_ fun other => ?_, (List.append_nil _).symm⟩
      · rw [Std.TreeMap.getElem?_erase, if_pos Std.ReflOrd.compare_self]
      · rw [Std.TreeMap.getElem?_erase]
        simp only [Std.LawfulEqCmp.compare_eq_iff_eq]
        by_cases hcoord : coord = other
        · rw [if_pos hcoord, ← hcoord, hpending]
        · rw [if_neg hcoord, if_neg hcoord]
  case h_2 hnone =>
      rw [hnone]
      exact q.shift_self

/-! ### Chunks in their places -/

/-- Whether every pending buffer holds the chunk that it is pending for. -/
def Placed (q : Queue κ) : Prop := ∀ v ∈ q.pendingViews, (q.content v).coord = v.coord

theorem Placed.of_subset (h : q.Placed) (hbuffers : q'.buffers = q.buffers)
    (hviews : ∀ v ∈ q'.pendingViews, v ∈ q.pendingViews) : q'.Placed := by
  intro v hv
  have hcontent : q'.content v = q.content v := by
    unfold content
    rw [hbuffers]
  rw [hcontent]
  exact h v (hviews v hv)

/-- A buffer in which another chunk of the same place is stored, through whatever view. -/
theorem Placed.store (h : q.Placed) (v : View) {c : Chunk}
    (hc : c.coord = (q.content v).coord) : (q.store v c).Placed := by
  intro w hw
  have hplaced : (q.content w).coord = w.coord := h w hw
  have hlt : w.buffer < q.buffers.size := buffer_lt_of_mem (q := q) hw
  unfold content at hc hplaced ⊢
  rw [Array.getD_eq_getD_getElem?] at hc hplaced ⊢
  rw [Queue.store, Array.getElem?_setIfInBounds]
  by_cases hsame : v.buffer = w.buffer
  · rw [if_pos hsame, if_pos (hsame ▸ hlt)]
    rw [hsame, Array.getElem?_eq_getElem hlt] at hc
    rw [Array.getElem?_eq_getElem hlt] at hplaced
    exact hc.trans hplaced
  · rw [if_neg hsame]
    exact hplaced

theorem Placed.forChunk (h : q.Placed) (coord : ChunkCoord) : (q.forChunk coord).2.Placed := by
  cases hpending : q.pending[coord]? with
  | some buffer =>
      rw [(forChunk_of_some hpending).1]
      exact h
  | none =>
      obtain ⟨-, -, hbuffers, -, hviews⟩ := forChunk_of_none hpending
      intro v hv
      unfold content
      rw [hbuffers, Array.getD_eq_getD_getElem?, Array.getElem?_push]
      rw [hviews.mem_iff, List.mem_cons] at hv
      rcases hv with rfl | hv
      · rw [if_pos rfl]
        rfl
      · rw [if_neg (buffer_lt_of_mem hv).ne, ← Array.getD_eq_getD_getElem?]
        exact h v hv

/-! ### Putting back -/

theorem restore_frame (q : Queue κ) (v : View) :
    (q.restore v).world = q.world ∧ (q.restore v).buffers = q.buffers ∧
      (q.restore v).completions = q.completions := by
  unfold restore
  split
  · exact ⟨rfl, rfl, rfl⟩
  · exact ⟨rfl, rfl, rfl⟩

/-- Putting views back changes only what is pending. -/
theorem putBack_frame (q : Queue κ) (views : List View) :
    (q.putBack views).world = q.world ∧ (q.putBack views).buffers = q.buffers ∧
      (q.putBack views).completions = q.completions := by
  induction views generalizing q with
  | nil => exact ⟨rfl, rfl, rfl⟩
  | cons v rest ih =>
      obtain ⟨hworld, hbuffers, hcompletions⟩ := ih (q.restore v)
      obtain ⟨hworld', hbuffers', hcompletions'⟩ := q.restore_frame v
      exact ⟨hworld.trans hworld', hbuffers.trans hbuffers', hcompletions.trans hcompletions'⟩

theorem pending_restore {v : View} (hbuffer : v.buffer < q.buffers.size)
    (hnew : q.pending[v.coord]? = none) (coord : ChunkCoord) :
    (q.restore v).pending[coord]? =
      if v.coord = coord then some v.buffer else q.pending[coord]? := by
  have hmem : v.coord ∉ q.pending := by
    rw [Std.TreeMap.mem_iff_isSome_getElem?, hnew]
    exact Bool.false_ne_true
  unfold restore
  rw [dif_pos hbuffer, Std.TreeMap.getElem?_insertIfNew]
  simp only [Std.LawfulEqCmp.compare_eq_iff_eq, hmem, not_false_eq_true, and_true]

/-- A view whose chunk is pending is not put back. -/
theorem pending_restore_of_some {v : View} {buffer : BufferId}
    (hold : q.pending[v.coord]? = some buffer) (coord : ChunkCoord) :
    (q.restore v).pending[coord]? = q.pending[coord]? := by
  have hmem : v.coord ∈ q.pending := by
    rw [Std.TreeMap.mem_iff_isSome_getElem?, hold]
    rfl
  unfold restore
  split
  · simp [Std.TreeMap.getElem?_insertIfNew, hmem]
  · rfl

/-- What is pending after one view was put back: what was, and the view if its chunk was not. -/
theorem mem_pendingViews_restore {v w : View} (hv : v.buffer < q.buffers.size) :
    w ∈ (q.restore v).pendingViews ↔
      w ∈ q.pendingViews ∨ w = v ∧ q.pendingView? v.coord = none := by
  cases hpending : q.pending[v.coord]? with
  | some buffer =>
      simp [mem_pendingViews, pending_restore_of_some hpending, pendingView?, hpending]
  | none =>
      have hone := pendingViews_perm_cons hpending (pending_restore hv hpending)
      simp [hone.mem_iff, pendingView?, hpending, or_comm]

/-- What is pending after views of different chunks were put back: what was, and those whose chunk
was not. -/
theorem mem_pendingViews_putBack {views : List View} (hsorted : views.Pairwise View.Before)
    (hbuffer : ∀ v ∈ views, v.buffer < q.buffers.size) {w : View} :
    w ∈ (q.putBack views).pendingViews ↔
      w ∈ q.pendingViews ∨ w ∈ views ∧ q.pendingView? w.coord = none := by
  induction views generalizing q with
  | nil => simp [putBack]
  | cons v rest ih =>
      obtain ⟨hfirst, hrest⟩ := List.pairwise_cons.mp hsorted
      have hv := hbuffer v List.mem_cons_self
      have hone : ∀ u : View, u ∈ (q.restore v).pendingViews ↔ _ := fun u =>
        mem_pendingViews_restore hv
      have hothers := ih (q := q.restore v) hrest fun u hu => by
        rw [(q.restore_frame v).2.1]
        exact hbuffer u (List.mem_cons_of_mem v hu)
      -- The views of the rest belong to other chunks, which the first does not make pending.
      have hsame : ∀ u ∈ rest, (q.restore v).pendingView? u.coord = q.pendingView? u.coord := by
        intro u hu
        have hne : v.coord ≠ u.coord := (hfirst u hu).coord_ne
        cases hpending : q.pending[v.coord]? with
        | some buffer => simp [pendingView?, pending_restore_of_some hpending]
        | none => simp [pendingView?, pending_restore hv hpending, hne]
      show w ∈ ((q.restore v).putBack rest).pendingViews ↔ _
      rw [hothers, hone]
      constructor
      · rintro ((hold | ⟨rfl, hnone⟩) | ⟨hw, hnone⟩)
        · exact .inl hold
        · exact .inr ⟨List.mem_cons_self, hnone⟩
        · exact .inr ⟨List.mem_cons_of_mem v hw, hsame w hw ▸ hnone⟩
      · rintro (hold | ⟨hw, hnone⟩)
        · exact .inl (.inl hold)
        · rcases List.mem_cons.mp hw with rfl | hw
          · exact .inl (.inr ⟨rfl, hnone⟩)
          · exact .inr ⟨hw, (hsame w hw).trans hnone⟩

/-- Of the views that are put back, those whose chunk is pending are left out. -/
theorem pendingViews_putBack_perm (q : Queue κ) {views : List View}
    (hsorted : views.Pairwise View.Before) (hbuffer : ∀ v ∈ views, v.buffer < q.buffers.size) :
    (q.putBack views).pendingViews.Perm
      ((views.filter fun v => !(q.pendingView? v.coord).isSome) ++ q.pendingViews) := by
  rw [List.perm_ext_iff_of_nodup (q.putBack views).nodup_pendingViews]
  · intro w
    simp [mem_pendingViews_putBack hsorted hbuffer, or_comm]
  · refine (hsorted.nodup.filter _).append q.nodup_pendingViews ?_
    intro v hv hpending
    have hsome := pendingView?_eq_some.mpr ⟨hpending, rfl⟩
    simp [hsome] at hv

/-- What a queue without pending chunks gets back is what is pending then. -/
theorem pendingViews_putBack (hnone : ∀ coord : ChunkCoord, q.pending[coord]? = none)
    {views : List View} (hsorted : views.Pairwise View.Before)
    (hbuffer : ∀ v ∈ views, v.buffer < q.buffers.size) :
    (q.putBack views).pendingViews = views := by
  refine (q.putBack views).sorted_pendingViews.eq_of_mem_iff hsorted fun w => ?_
  simp [mem_pendingViews_putBack hsorted hbuffer, mem_pendingViews, pendingView?, hnone]

end Queue

end Cadastre
