import Cadastre.Proofs.Queue.Daybook
/-!
# Cadastre.Proofs.Queue.Whereabouts

**Where the views of a daybook are**, in whatever state its steps lead to.

Every view that was made was accepted, taken out, replaced or lost, or it is on its way or pending,
and never two of these. What was accepted of a chunk, what is on its way and what is pending follow
each other by age. Both are kept by every step (`Daybook.Sound.step`), one lemma for each kind.
-/

namespace Cadastre

variable {κ : Type}

/-- Of two views of one chunk the second is the newer one. -/
def View.Yields (v w : View) : Prop := v.coord = w.coord → v.buffer < w.buffer

theorem View.yields_of_sorted {views : List View} (h : views.Pairwise View.Before) :
    views.Pairwise View.Yields :=
  h.imp fun hbefore heq => absurd heq hbefore.coord_ne

namespace Daybook

/-- What was accepted or taken out. -/
def settled (d : Daybook κ) : List View := d.accepted.map Prod.fst ++ d.taken

/-- A daybook in which every view is in its place. -/
structure Sound (d : Daybook κ) : Prop where
  buffers : d.made.map View.buffer = List.range d.queue.buffers.size
  views : d.made.Perm (d.settled ++ d.replaced ++ d.lost ++ d.outstanding)
  succession : (d.accepted.map Prod.fst ++ d.outstanding).Pairwise View.Yields
  sorted : d.stage.inFlight.Pairwise View.Before
  waiting : d.waiting.map Promise.completion = d.queue.completions
  due : d.due.map Promise.completion = d.stage.completions

namespace Sound

variable {d d' : Daybook κ}

theorem nodup (h : d.Sound) :
    (d.settled ++ d.replaced ++ d.lost ++ d.outstanding).Nodup := by
  have hmade : d.made.Nodup := by
    refine List.Nodup.of_map View.buffer ?_
    rw [h.buffers]
    exact List.nodup_range
  exact h.views.nodup_iff.mp hmade

/-- A view that was made names a buffer that exists. -/
theorem buffer_lt (h : d.Sound) {v : View} (hv : v ∈ d.made) :
    v.buffer < d.queue.buffers.size := by
  have hmem := List.mem_map_of_mem (f := View.buffer) hv
  rw [h.buffers] at hmem
  exact List.mem_range.mp hmem

theorem mem_made (h : d.Sound) {v : View} : v ∈ d.made ↔
    v ∈ d.settled ∨ v ∈ d.replaced ∨ v ∈ d.lost ∨ v ∈ d.outstanding := by
  rw [h.views.mem_iff]
  simp

/-- Views of one buffer are the same. -/
theorem eq_of_buffer (h : d.Sound) {v w : View} (hv : v ∈ d.made) (hw : w ∈ d.made)
    (hbuffer : v.buffer = w.buffer) : v = w := by
  refine List.inj_on_of_nodup_map ?_ hv hw hbuffer
  rw [h.buffers]
  exact List.nodup_range

/-- What is pending is neither accepted nor on its way. -/
theorem of_pending (h : d.Sound) {v : View} (hv : v ∈ d.queue.pendingViews) :
    v ∈ d.made ∧ v ∉ d.accepted.map Prod.fst ∧ v ∉ d.stage.inFlight := by
  obtain ⟨-, hnodup, hdisjoint⟩ := List.nodup_append'.mp h.nodup
  have hout : v ∈ d.outstanding := List.mem_append_right _ hv
  refine ⟨h.mem_made.mpr (.inr (.inr (.inr hout))), fun haccepted => ?_, fun hflight => ?_⟩
  · exact hdisjoint (by simp [settled, haccepted]) hout
  · exact (List.nodup_append'.mp hnodup).2.2 hflight hv

/-- What is on its way are views of different chunks, each with its buffer. -/
theorem inFlight_spec (h : d.Sound) : d.stage.inFlight.Pairwise View.Before ∧
    ∀ v ∈ d.stage.inFlight, v.buffer < d.queue.buffers.size := by
  refine ⟨h.sorted, fun v hv => h.buffer_lt (h.mem_made.mpr ?_)⟩
  exact .inr (.inr (.inr (List.mem_append_left _ hv)))

theorem new (world : String) : (new world : Daybook κ).Sound where
  buffers := rfl
  views := .refl _
  succession := .nil
  sorted := .nil
  waiting := rfl
  due := rfl

/-- What is pending after a use of the queue was pending before or is newer than all that was made. -/
theorem mem_pendingViews_use (h : d.Sound) (u : Use κ) {w : View}
    (hw : w ∈ (u.after d.queue).pendingViews) :
    w ∈ d.queue.pendingViews ∨ ∀ v ∈ d.made, v.buffer < w.buffer := by
  have hs := u.shift d.queue
  have hmem : w ∈ u.opens d.queue ++ d.queue.pendingViews :=
    hs.views.mem_iff.mpr (List.mem_append_right _ hw)
  rcases List.mem_append.mp hmem with hnew | hold
  · right
    intro v hv
    have hfresh := List.mem_map_of_mem (f := View.buffer) hnew
    rw [hs.fresh, List.mem_range'_1] at hfresh
    exact (h.buffer_lt hv).trans_le hfresh.1
  · exact .inl hold

theorem use (h : d.Sound) (u : Use κ) : (d.use u).Sound := by
  have hs := u.shift d.queue
  constructor
  case buffers =>
    simp [Daybook.use, h.buffers, hs.fresh, hs.size, List.range_eq_range', ← List.range'_append_1]
  case views =>
    rw [List.perm_iff_count]
    intro v
    have hbefore := h.views.count_eq v
    have hmoved := hs.views.count_eq v
    simp only [Daybook.use, settled, outstanding, List.count_append] at hbefore hmoved ⊢
    omega
  case succession =>
    have hold := h.succession
    simp only [Daybook.use, outstanding, ← List.append_assoc] at hold ⊢
    rw [List.pairwise_append] at hold ⊢
    refine ⟨hold.1, View.yields_of_sorted (Queue.sorted_pendingViews _), ?_⟩
    intro v hv w hw
    rcases h.mem_pendingViews_use u hw with hw | hnewer
    · exact hold.2.2 v hv w hw
    · refine fun _ => hnewer v (h.mem_made.mpr ?_)
      simp only [settled, outstanding, List.mem_append] at hv ⊢
      tauto
  case sorted => exact h.sorted
  case waiting => simp [Daybook.use, hs.completions, h.waiting, Function.comp_def]
  case due => exact h.due

theorem start (h : d.Sound) (hstage : d.stage = .idle) : d.start.Sound := by
  obtain ⟨hbuffers, hviews, hsuccession, -, hwaiting, hdue⟩ := h
  simp only [outstanding, hstage, Stage.inFlight_idle, List.nil_append] at hviews hsuccession
  constructor
  case buffers => exact hbuffers
  case views => simpa [Daybook.start, settled, outstanding] using hviews
  case succession => simpa [Daybook.start, outstanding] using hsuccession
  case sorted => exact d.queue.sorted_pendingViews
  case waiting => exact hwaiting
  case due => simpa [Daybook.start, hstage, Stage.completions] using hdue

theorem offer (h : d.Sound) {v : View} {rest : List View} (hstage : d.stage = .handing (v :: rest)) :
    (d.offer v rest).Sound := by
  obtain ⟨hbuffers, hviews, hsuccession, hsorted, hwaiting, hdue⟩ := h
  simp only [outstanding, hstage] at hviews hsuccession hsorted hdue
  exact ⟨hbuffers, hviews, hsuccession, hsorted, hwaiting, hdue⟩

theorem accept (h : d.Sound) {v : View} {chunk : Chunk} {rest : List View}
    (hstage : d.stage = .offering v chunk rest) : (d.accept v chunk rest).Sound := by
  obtain ⟨hbuffers, hviews, hsuccession, hsorted, hwaiting, hdue⟩ := h
  simp only [outstanding, hstage, Stage.inFlight_offering] at hviews hsuccession hsorted hdue
  constructor
  case buffers => exact hbuffers
  case views =>
    rw [List.perm_iff_count] at hviews ⊢
    intro w
    have hbefore := hviews w
    simp only [Daybook.accept, settled, outstanding, Stage.inFlight_handing, List.map_append,
      List.map_cons, List.map_nil, List.count_append, List.count_cons, List.count_nil] at hbefore ⊢
    omega
  case succession => simpa [Daybook.accept, outstanding] using hsuccession
  case sorted => exact hsorted.of_cons
  case waiting => exact hwaiting
  case due => exact hdue

theorem refuse (h : d.Sound) {v : View} {chunk : Chunk} {rest : List View}
    (hstage : d.stage = .offering v chunk rest) : (d.refuse v rest).Sound := by
  obtain ⟨hsorted, hbuffer⟩ := h.inFlight_spec
  obtain ⟨hbuffers, hviews, hsuccession, -, hwaiting, hdue⟩ := h
  simp only [outstanding, hstage, Stage.inFlight_offering] at hviews hsuccession hsorted hbuffer
  obtain ⟨-, hframe, hcompletions⟩ := d.queue.putBack_frame (v :: rest)
  constructor
  case buffers => simp [Daybook.refuse, hframe, hbuffers]
  case views =>
    rw [List.perm_iff_count] at hviews ⊢
    intro w
    have hbefore := hviews w
    have hback := (d.queue.pendingViews_putBack_perm hsorted hbuffer).count_eq w
    have hsplit := (List.filter_append_perm (fun w => (d.queue.pendingView? w.coord).isSome)
      (v :: rest)).count_eq w
    simp only [Daybook.refuse, settled, outstanding, Stage.inFlight_idle, List.count_append,
      List.count_nil] at hbefore hback hsplit ⊢
    omega
  case succession =>
    simp only [Daybook.refuse, outstanding, Stage.inFlight_idle, List.nil_append]
    rw [List.pairwise_append] at hsuccession ⊢
    obtain ⟨haccepted, -, hafter⟩ := hsuccession
    refine ⟨haccepted, View.yields_of_sorted (Queue.sorted_pendingViews _), ?_⟩
    intro a ha w hw
    refine hafter a ha w (List.mem_append.mpr ?_)
    rcases (Queue.mem_pendingViews_putBack hsorted hbuffer).mp hw with hw | ⟨hw, -⟩
    · exact .inr hw
    · exact .inl hw
  case sorted => exact .nil
  case waiting => simp [Daybook.refuse, hcompletions, hwaiting]
  case due => simpa [Daybook.refuse, hstage, Stage.completions] using hdue

theorem release (h : d.Sound) (hstage : d.stage = .handing []) : d.release.Sound := by
  obtain ⟨hbuffers, hviews, hsuccession, hsorted, hwaiting, hdue⟩ := h
  simp only [outstanding, hstage] at hviews hsuccession hsorted hdue
  exact ⟨hbuffers, hviews, hsuccession, .nil, rfl, hwaiting⟩

theorem complete (h : d.Sound) {completion : κ} {rest : List κ}
    (hstage : d.stage = .completing (completion :: rest)) : (d.complete rest).Sound := by
  obtain ⟨hbuffers, hviews, hsuccession, hsorted, hwaiting, hdue⟩ := h
  simp only [outstanding, hstage] at hviews hsuccession hsorted hdue
  refine ⟨hbuffers, hviews, hsuccession, hsorted, hwaiting, ?_⟩
  simp [Daybook.complete, List.map_tail, hdue, Stage.completions]

theorem finish (h : d.Sound) (hstage : d.stage = .completing []) : d.finish.Sound := by
  obtain ⟨hbuffers, hviews, hsuccession, hsorted, hwaiting, hdue⟩ := h
  simp only [outstanding, hstage] at hviews hsuccession hsorted hdue
  exact ⟨hbuffers, hviews, hsuccession, hsorted, hwaiting, hdue⟩

theorem abort (h : d.Sound) : d.abort.Sound := by
  obtain ⟨hbuffers, hviews, hsuccession, -, hwaiting, -⟩ := h
  constructor
  case buffers => exact hbuffers
  case views =>
    rw [List.perm_iff_count] at hviews ⊢
    intro w
    have hbefore := hviews w
    simp only [Daybook.abort, settled, outstanding, Stage.inFlight_idle, List.count_append,
      List.count_nil] at hbefore ⊢
    omega
  case succession =>
    refine hsuccession.sublist (List.Sublist.append_left ?_ _)
    simp [Daybook.abort, outstanding]
  case sorted => exact .nil
  case waiting => exact hwaiting
  case due => rfl

theorem flush (h : d.Sound) (hstep : FlushStep d d') : d'.Sound := by
  cases hstep with
  | start hstage => exact h.start hstage
  | offer hstage => exact h.offer hstage
  | accept hstage => exact h.accept hstage
  | refuse hstage => exact h.refuse hstage
  | release hstage => exact h.release hstage
  | complete hstage => exact h.complete hstage
  | finish hstage => exact h.finish hstage

theorem step (h : d.Sound) (hstep : Step d d') : d'.Sound := by
  cases hstep with
  | use u => exact h.use u
  | flush hflush => exact h.flush hflush
  | abort _ => exact h.abort

end Sound

/-- **Every view is in its place**, in whatever state the steps lead to. -/
theorem Reachable.sound {world : String} {d : Daybook κ} (h : Reachable world d) : d.Sound := by
  induction h with
  | refl => exact .new world
  | tail _ hstep ih => exact ih.step hstep

/-! ### Replaced views -/

/-- A daybook in which what was replaced is older than what it was replaced by, and than whatever is
or comes on its way or pending of its chunk. -/
structure Superseded (d : Daybook κ) : Prop where
  newer : ∀ u ∈ d.replaced, ∃ w ∈ d.made, w.coord = u.coord ∧ u.buffer < w.buffer
  yields : ∀ u ∈ d.replaced, ∀ w ∈ d.outstanding, u.Yields w

namespace Superseded

variable {d d' : Daybook κ}

/-- Where nothing more is replaced, and nothing comes to be outstanding, all stays as it is. -/
theorem of_frame (h : d.Superseded) (hbooks : (d'.replaced, d'.made) = (d.replaced, d.made))
    (houtstanding : ∀ w ∈ d'.outstanding, w ∈ d.outstanding) : d'.Superseded := by
  obtain ⟨hreplaced, hmade⟩ := Prod.mk.inj hbooks
  refine ⟨?_, fun u hu w hw => h.yields u (hreplaced ▸ hu) w (houtstanding w hw)⟩
  rw [hreplaced, hmade]
  exact h.newer

theorem use (hd : d.Sound) (h : d.Superseded) (u : Use κ) : (d.use u).Superseded := by
  constructor
  case newer =>
    intro v hv
    obtain ⟨w, hw, hnewer⟩ := h.newer v hv
    exact ⟨w, List.mem_append_left _ hw, hnewer⟩
  case yields =>
    intro v hv w hw
    rcases List.mem_append.mp hw with hflight | hpending
    · exact h.yields v hv w (List.mem_append_left _ hflight)
    · rcases hd.mem_pendingViews_use u hpending with hold | hnewer
      · exact h.yields v hv w (List.mem_append_right _ hold)
      · exact fun _ => hnewer v (hd.mem_made.mpr (.inr (.inl hv)))

/-- What is not put back is older than the buffer that stays in its place. -/
theorem refuse (hd : d.Sound) (h : d.Superseded) {v : View} {chunk : Chunk} {rest : List View}
    (hstage : d.stage = .offering v chunk rest) : (d.refuse v rest).Superseded := by
  obtain ⟨hsorted, hbuffer⟩ := hd.inFlight_spec
  have hsuccession := hd.succession
  rw [outstanding, List.pairwise_append, List.pairwise_append] at hsuccession
  obtain ⟨-, ⟨-, -, hyields⟩, -⟩ := hsuccession
  rw [hstage, Stage.inFlight_offering] at hsorted hbuffer hyields
  have hback : ∀ w : View, w ∈ (d.refuse v rest).outstanding →
      w ∈ d.queue.pendingViews ∨ w ∈ v :: rest ∧ d.queue.pendingView? w.coord = none :=
    fun w hw => (Queue.mem_pendingViews_putBack hsorted hbuffer).mp hw
  constructor
  case newer =>
    intro u hu
    rcases List.mem_append.mp hu with hold | hnow
    · exact h.newer u hold
    · obtain ⟨hflight, hsome⟩ := List.mem_filter.mp hnow
      obtain ⟨w, hw⟩ := Option.isSome_iff_exists.mp hsome
      obtain ⟨hpending, hcoord⟩ := Queue.pendingView?_eq_some.mp hw
      refine ⟨w, hd.mem_made.mpr (.inr (.inr (.inr ?_))), hcoord, ?_⟩
      · exact List.mem_append_right _ hpending
      · exact hyields u hflight w hpending hcoord.symm
  case yields =>
    intro u hu w hw
    rcases List.mem_append.mp hu with hold | hnow
    · refine h.yields u hold w (List.mem_append.mpr ?_)
      rw [hstage, Stage.inFlight_offering]
      exact (hback w hw).symm.imp_left And.left
    · obtain ⟨hflight, hsome⟩ := List.mem_filter.mp hnow
      rcases hback w hw with hpending | ⟨-, hnone⟩
      · exact hyields u hflight w hpending
      · intro hcoord
        rw [hcoord, hnone] at hsome
        cases hsome

theorem step (hd : d.Sound) (h : d.Superseded) (hstep : Step d d') : d'.Superseded := by
  cases hstep with
  | use u => exact h.use hd u
  | abort _ =>
      refine h.of_frame rfl fun w hw => ?_
      exact List.mem_append_right _ (by simpa [outstanding, abort] using hw)
  | flush hflush =>
      cases hflush with
      | refuse hstage => exact h.refuse hd hstage
      | accept hstage =>
          refine h.of_frame rfl fun w hw => ?_
          rw [outstanding, hstage]
          exact List.mem_cons_of_mem _ hw
      | start hstage =>
          refine h.of_frame rfl fun w hw => ?_
          simpa [outstanding, start, hstage] using hw
      | offer hstage => exact h.of_frame rfl fun w hw => by rwa [outstanding, hstage]
      | release hstage => exact h.of_frame rfl fun w hw => by rwa [outstanding, hstage]
      | complete hstage => exact h.of_frame rfl fun w hw => by rwa [outstanding, hstage]
      | finish hstage => exact h.of_frame rfl fun w hw => by rwa [outstanding, hstage]

end Superseded

/-- **The pending buffer of a chunk is the newest** that was made, unless one was taken out or lost. -/
theorem Sound.le_of_pending {d : Daybook κ} (h : d.Sound) (hs : d.Superseded) {u w : View}
    (hu : u ∈ d.made) (htaken : u ∉ d.taken) (hlost : u ∉ d.lost)
    (hw : w ∈ d.queue.pendingViews) (hcoord : u.coord = w.coord) : u.buffer ≤ w.buffer := by
  have hsuccession := h.succession
  simp only [outstanding, List.pairwise_append, List.mem_append] at hsuccession
  obtain ⟨-, ⟨-, -, hflight⟩, haccepted⟩ := hsuccession
  have hout : w ∈ d.outstanding := List.mem_append_right _ hw
  rcases h.mem_made.mp hu with hsettled | hreplaced | hmem | houtstanding
  · have hmem := (List.mem_append.mp hsettled).resolve_right htaken
    exact (haccepted u hmem w (.inr hw) hcoord).le
  · exact (hs.yields u hreplaced w hout hcoord).le
  · exact absurd hmem hlost
  · rcases List.mem_append.mp houtstanding with hmem | hpending
    · exact (hflight u hmem w hw hcoord).le
    · rw [Queue.eq_of_mem_pendingViews hpending hw hcoord]

theorem Reachable.superseded {world : String} {d : Daybook κ} (h : Reachable world d) :
    d.Superseded := by
  induction h with
  | refl => constructor <;> simp [Daybook.new]
  | tail hsteps hstep ih => exact ih.step (Reachable.sound hsteps) hstep

end Daybook

end Cadastre
