import Cadastre.Proofs.Queue.Writes
import Cadastre.Proofs.Server.Product
import Cadastre.Proofs.Server.Receivers
import Mathlib.Data.List.Count
/-!
# Cadastre.Proofs.Server.Delivery

**Where the chunks are that were asked for.** Each of them is pending in the queue of its world, or
was handed over to the receiver, as often as it was asked for and always with the same content
(`Site.Delivers`). A chunk that is made where none was pending keeps this, and so does a round of
flushing, which leaves nothing pending (`Site.Delivers.flushAll`).
-/

namespace Cadastre

variable {κ σ : Type}

/-- A chunk that is made where none was pending is pending from then on, and the others stay as they
are. -/
theorem Queue.write_of_none {q : Queue κ} {coord : ChunkCoord} (h : q.pending[coord]? = none)
    (c : Chunk) : (q.write coord c).world = q.world ∧ ∃ v : View, v.coord = coord ∧
      (q.write coord c).pendingViews.Perm (v :: q.pendingViews) ∧ (q.write coord c).content v = c ∧
      ∀ w ∈ q.pendingViews, (q.write coord c).content w = q.content w := by
  obtain ⟨-, hworld, hbuffers, -, hviews⟩ := forChunk_of_none h
  have hview : (q.forChunk coord).1 = ⟨coord, q.buffers.size⟩ := by
    unfold forChunk
    rw [h]
  have hlt : (q.forChunk coord).1.buffer < (q.forChunk coord).2.buffers.size := by
    rw [hview, hbuffers, Array.size_push]
    exact Nat.lt_succ_self _
  refine ⟨hworld, (q.forChunk coord).1, q.coord_forChunk coord, hview ▸ hviews,
    content_store _ hlt c, fun w hw => ?_⟩
  have hother : (q.forChunk coord).1.buffer ≠ w.buffer := by
    rw [hview]
    exact (buffer_lt_of_mem hw).ne'
  unfold write
  rw [content_store_of_lt hlt, if_neg hother, content_forChunk coord (buffer_lt_of_mem hw)]

namespace Site

/-- Where the chunks are that were asked for, the receiver having had some `before`. Each was
`delivered` or is pending, as often as it was `wanted`. -/
structure Delivers (received : σ → List (String × Chunk)) (product : String → ChunkCoord → Chunk)
    (before : List (String × Chunk)) (s : Site κ σ)
    (delivered wanted : List (String × ChunkCoord)) : Prop where
  world : ∀ world, (s.queue world).world = world
  content : ∀ world, ∀ v ∈ (s.queue world).pendingViews,
    (s.queue world).content v = product world v.coord
  count : ∀ world coord, delivered.count (world, coord) +
    ((s.queue world).pendingViews.map View.coord).count coord = wanted.count (world, coord)
  received : received s.host = before ++ delivered.map fun key => (key.1, product key.1 key.2)

namespace Delivers

variable {received : σ → List (String × Chunk)} {product : String → ChunkCoord → Chunk}
  {before : List (String × Chunk)} {s s' : Site κ σ} {delivered wanted : List (String × ChunkCoord)}
  {sink : Sink κ σ}

/-- Only the chunks in the queues and the state of the surroundings matter. -/
theorem of_frame (h : s.Delivers received product before delivered wanted)
    (hhost : s'.host = s.host)
    (hqueue : ∀ world, (s'.queue world).world = (s.queue world).world ∧
      (s'.queue world).pending = (s.queue world).pending ∧
      (s'.queue world).buffers = (s.queue world).buffers) :
    s'.Delivers received product before delivered wanted := by
  have hviews (world : String) :
      (s'.queue world).pendingViews = (s.queue world).pendingViews := by
    unfold Queue.pendingViews Queue.takePending
    rw [(hqueue world).2.1]
  refine ⟨fun world => ?_, fun world v hv => ?_, fun world coord => ?_, ?_⟩
  · rw [(hqueue world).1, h.world]
  · rw [hviews] at hv
    rw [Queue.content, (hqueue world).2.2]
    exact h.content world v hv
  · rw [hviews, h.count]
  · rw [hhost, h.received]

/-- Where only one world's queue changes, only the chunks of that world have to be looked at. -/
theorem of_world (h : s.Delivers received product before delivered wanted) {world : String}
    {delivered' wanted' : List (String × ChunkCoord)}
    (hother : ∀ other, other ≠ world → s'.queue other = s.queue other ∧
      ∀ coord, delivered'.count (other, coord) = delivered.count (other, coord) ∧
        wanted'.count (other, coord) = wanted.count (other, coord))
    (hworld : (s'.queue world).world = world)
    (hcontent : ∀ v ∈ (s'.queue world).pendingViews,
      (s'.queue world).content v = product world v.coord)
    (hcount : ∀ coord, delivered'.count (world, coord) +
      ((s'.queue world).pendingViews.map View.coord).count coord = wanted'.count (world, coord))
    (hreceived : received s'.host =
      before ++ delivered'.map fun key => (key.1, product key.1 key.2)) :
    s'.Delivers received product before delivered' wanted' := by
  constructor
  case world =>
    intro other
    by_cases hsame : other = world
    · rw [hsame, hworld]
    · rw [(hother other hsame).1, h.world]
  case content =>
    intro other v hv
    by_cases hsame : other = world
    · subst hsame
      exact hcontent v hv
    · rw [(hother other hsame).1] at hv ⊢
      exact h.content other v hv
  case count =>
    intro other coord
    by_cases hsame : other = world
    · subst hsame
      exact hcount coord
    · obtain ⟨hqueue, hcounts⟩ := hother other hsame
      rw [hqueue, (hcounts coord).1, (hcounts coord).2, h.count]
  case received => exact hreceived

/-- **A chunk that is made** and was not wanted before is pending. -/
theorem made (h : s.Delivers received product before delivered wanted) {world : String}
    {coord : ChunkCoord} (hmade : s.Made s' world coord (product world coord))
    (hnew : (world, coord) ∉ wanted) :
    s'.Delivers received product before delivered ((world, coord) :: wanted) := by
  have hnone : (s.queue world).pending[coord]? = none := by
    cases hpending : (s.queue world).pending[coord]? with
    | none => rfl
    | some buffer =>
        have hmem : (⟨coord, buffer⟩ : View) ∈ (s.queue world).pendingViews :=
          Queue.mem_pendingViews.mpr hpending
        have hpos : 0 < ((s.queue world).pendingViews.map View.coord).count coord :=
          List.count_pos_iff.mpr (List.mem_map_of_mem (f := View.coord) hmem)
        have hcount := h.count world coord
        rw [List.count_eq_zero_of_not_mem hnew] at hcount
        omega
  obtain ⟨hworld, v, hv, hviews, hcontent, hold⟩ :=
    Queue.write_of_none hnone (product world coord)
  rw [← hmade.queue] at hworld hviews hcontent hold
  refine h.of_world (fun other hother => ⟨hmade.other other hother,
    fun coord' => ⟨rfl, ?_⟩⟩) (hworld.trans (h.world world)) (fun w hw => ?_) (fun coord' => ?_) ?_
  · exact List.count_cons_of_ne fun heq => hother (congrArg Prod.fst heq).symm
  · rcases List.mem_cons.mp (hviews.mem_iff.mp hw) with rfl | hw
    · rw [hcontent, hv]
    · rw [hold w hw, h.content world w hw]
  · rw [(hviews.map View.coord).count_eq, List.map_cons, hv, List.count_cons, List.count_cons,
      ← h.count world coord', Nat.add_assoc]
    simp
  · rw [hmade.host, h.received]

/-! ### Rounds -/

/-- **A flush of one world** hands over what is pending there. -/
theorem flush (hsink : sink.Records received)
    (h : s.Delivers received product before delivered wanted) (world : String) :
    Edit.Ends (onQueue world sink.flush) s fun report s' =>
      (s'.areas = s.areas ∧ s'.merges = s.merges) ∧ (s'.queue world).pendingViews = [] ∧
        (∀ other, other ≠ world → s'.queue other = s.queue other) ∧
        ∃ delivered', s'.Delivers received product before delivered' wanted ∧
          delivered'.length = delivered.length + report.committed := by
  refine (onQueue_ends (Sink.flush_records hsink _)).mono fun report s' hdone => ?_
  obtain ⟨⟨hcommitted, hworld, hviews, hreceived⟩, hareas, hmerges, hother⟩ := hdone
  dsimp only at hcommitted hworld hviews hreceived
  let handed : List (String × ChunkCoord) :=
    ((s.queue world).pendingViews.map View.coord).map (world, ·)
  have hproducts : ((s.queue world).pendingViews.map fun v =>
      ((s.queue world).world, (s.queue world).content v)) =
        handed.map fun key => (key.1, product key.1 key.2) := by
    rw [List.map_map, List.map_map]
    refine List.map_congr_left fun v hv => ?_
    rw [h.world, h.content world v hv]
    rfl
  have hcount (coord : ChunkCoord) : handed.count (world, coord) =
      ((s.queue world).pendingViews.map View.coord).count coord :=
    List.count_map_of_injective _ _ (fun _ _ heq => (Prod.mk.inj heq).2) coord
  have hnone {other : String} (hne : other ≠ world) (coord : ChunkCoord) :
      handed.count (other, coord) = 0 := by
    refine List.count_eq_zero_of_not_mem fun hmem => ?_
    obtain ⟨_, -, heq⟩ := List.mem_map.mp hmem
    exact hne (Prod.mk.inj heq).1.symm
  refine ⟨⟨hareas, hmerges⟩, hviews, hother, delivered ++ handed, ?_, ?_⟩
  · refine h.of_world (fun other hne => ⟨hother other hne, fun coord =>
      ⟨?_, rfl⟩⟩) (hworld.trans (h.world world)) (fun v hv => ?_) (fun coord => ?_) ?_
    · rw [List.count_append, hnone hne, Nat.add_zero]
    · rw [hviews] at hv
      cases hv
    · rw [hviews, List.count_append, hcount, ← h.count world coord]
      rfl
    · rw [hreceived, hproducts, h.received, List.map_append, List.append_assoc]
  · rw [hcommitted, List.length_append, List.length_map, List.length_map]

/-- **A flush of some worlds in turn** leaves nothing pending in them. -/
theorem flushWorlds (hsink : sink.Records received) (worlds : List String) (n : Nat)
    (h : s.Delivers received product before delivered wanted) :
    Edit.Ends (worlds.foldlM (fun count world => do
        return count + (← onQueue world sink.flush).committed) n : Edit (Site κ σ) Nat) s
      fun count s' => (s'.areas = s.areas ∧ s'.merges = s.merges) ∧
        (∀ world, world ∈ worlds ∨ (s.queue world).pendingViews = [] →
          (s'.queue world).pendingViews = []) ∧
        ∃ delivered', s'.Delivers received product before delivered' wanted ∧
          delivered'.length + n = delivered.length + count := by
  induction worlds generalizing s delivered n with
  | nil =>
      refine Edit.ends_pure ⟨⟨rfl, rfl⟩, fun world hworld => ?_, delivered, h, rfl⟩
      exact hworld.resolve_left List.not_mem_nil
  | cons world rest ih =>
      rw [List.foldlM_cons, bind_assoc]
      refine (h.flush hsink world).bind fun report s₁ hfirst => ?_
      obtain ⟨⟨hareas, hmerges⟩, hviews, hother, delivered₁, h₁, hlength⟩ := hfirst
      rw [pure_bind]
      refine (ih (n + report.committed) h₁).mono fun count s₂ hrest => ?_
      obtain ⟨⟨hareas', hmerges'⟩, hviews', delivered₂, h₂, hlength'⟩ := hrest
      refine ⟨⟨hareas'.trans hareas, hmerges'.trans hmerges⟩, fun other hdue => hviews' other ?_,
        delivered₂, h₂, by omega⟩
      by_cases hsame : other = world
      · rw [hsame]
        exact .inr hviews
      · rw [hother other hsame]
        exact hdue.imp_left fun hmem => (List.mem_cons.mp hmem).resolve_left hsame

/-- **A round** hands over everything that was wanted and is pending, each world's chunks in their
turn. -/
theorem flushAll (hsink : sink.Records received)
    (h : s.Delivers received product before delivered wanted) :
    Edit.Ends (flushAll sink) s fun count s' => (s'.areas = s.areas ∧ s'.merges = s.merges) ∧
      ∃ delivered', s'.Delivers received product before delivered' wanted ∧
        delivered'.length = delivered.length + count ∧ delivered'.Perm wanted := by
  refine Edit.ends_get_bind ?_
  refine (h.flushWorlds hsink s.worlds 0).mono fun count s' hdone => ?_
  obtain ⟨hframe, hviews, delivered', h', hlength⟩ := hdone
  refine ⟨hframe, delivered', h', hlength, List.perm_iff_count.mpr fun key => ?_⟩
  have hnone : (s'.queue key.1).pendingViews = [] := by
    refine hviews key.1 ?_
    by_cases hqueue : key.1 ∈ s.queues
    · exact .inl (Std.TreeMap.mem_keys.mpr hqueue)
    · -- A world without a queue has nothing pending.
      unfold queue
      rw [Std.TreeMap.getD_eq_fallback hqueue]
      exact .inr rfl
  have hcount := h'.count key.1 key.2
  rw [hnone] at hcount
  exact hcount

end Delivers

end Site

end Cadastre
