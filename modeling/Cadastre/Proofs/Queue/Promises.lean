import Cadastre.Proofs.Queue.Whereabouts
/-!
# Cadastre.Proofs.Queue.Promises

**Completions wait for the chunks that were there before them**, unless they come while a flush is
handing chunks over.

A flush takes the chunks at its beginning, and the completions only when all those chunks are
accepted. A completion that was added in between runs at the end of the same flush, which never had
the chunks that became pending after its beginning (`early_completion`). A completion that was added
before the flush that runs it finds what it was owed accepted or taken out, or a newer buffer of the
chunk in its place, unless a flush that was cut off lost it (`completion_waits`).

What a promise is owed is followed from the step that adds its completion to the one that runs it
(`Daybook.Owed`). Whether it may still be pending is all that depends on the stage.
-/

namespace Cadastre

variable {κ : Type}

/-- Whether a view or a newer one of its chunk is among some views. -/
def View.SurvivesIn (v : View) (views : List View) : Prop :=
  ∃ w ∈ views, w.coord = v.coord ∧ v.buffer ≤ w.buffer

namespace View.SurvivesIn

variable {v : View} {views views' : List View}

theorem of_mem (h : v ∈ views) : v.SurvivesIn views := ⟨v, h, rfl, le_rfl⟩

/-- What survives in views that all survive in other views survives in the others. -/
theorem trans (h : v.SurvivesIn views) (hviews : ∀ w ∈ views, w.SurvivesIn views') :
    v.SurvivesIn views' := by
  obtain ⟨w, hw, hcoord, hle⟩ := h
  obtain ⟨u, hu, hcoord', hle'⟩ := hviews w hw
  exact ⟨u, hu, hcoord'.trans hcoord, hle.trans hle'⟩

theorem mono (h : v.SurvivesIn views) (hviews : ∀ w ∈ views, w ∈ views') : v.SurvivesIn views' :=
  h.trans fun w hw => of_mem (hviews w hw)

end View.SurvivesIn

namespace Daybook

/-- What nobody waits for any more: it was accepted, taken out or lost. -/
def cleared (d : Daybook κ) : List View := d.settled ++ d.lost

/-- What holds of a view that a promise is owed, where `late` says whether it may be pending still:
its buffer was made, and it or a newer buffer of its chunk was cleared or is on its way to be. -/
structure Owed (d : Daybook κ) (v : View) (late : Prop) : Prop where
  made : v ∈ d.made
  pending : v ∈ d.queue.pendingViews → late
  survives : v.SurvivesIn (d.cleared ++ d.stage.inFlight) ∨
    v.SurvivesIn d.queue.pendingViews ∧ late

/-- A daybook whose promises are kept as far as they can be. What waits may be owed something
pending as long as no flush that began after it is handing chunks over; what is due may be so only
if it was added during this very flush. -/
structure Promising (d : Daybook κ) : Prop where
  round_le : ∀ p ∈ d.waiting ++ d.due, p.round ≤ d.rounds
  waiting : ∀ p ∈ d.waiting, ∀ v ∈ p.owed,
    d.Owed v (d.stage.isHanding = true → p.round = d.rounds)
  due : ∀ p ∈ d.due, ∀ v ∈ p.owed, d.Owed v (p.round = d.rounds)

variable {d d' : Daybook κ} {v : View} {late late' : Prop}

/-! ### One view -/

namespace Owed

theorem imp (h : d.Owed v late) (hlate : late → late') : d.Owed v late' :=
  ⟨h.made, fun hv => hlate (h.pending hv), h.survives.imp_right fun hs => ⟨hs.1, hlate hs.2⟩⟩

/-- Only what was made, what is pending, what was cleared and what is on its way matter. -/
theorem of_frame (h : d.Owed v late) (hqueue : d'.queue.pendingViews = d.queue.pendingViews)
    (hcleared : (d'.made, d'.cleared) = (d.made, d.cleared))
    (hflight : d'.stage.inFlight = d.stage.inFlight) (hlate : late → late') :
    d'.Owed v late' := by
  obtain ⟨hmade, hpending, hsurvives⟩ := h.imp hlate
  obtain ⟨hmade', hcleared'⟩ := Prod.mk.inj hcleared
  refine ⟨hmade' ▸ hmade, hqueue ▸ hpending, ?_⟩
  rw [hcleared', hflight, hqueue]
  exact hsurvives

/-- Nothing that a promise is owed goes astray in a use of the queue. -/
theorem use (hd : d.Sound) (h : d.Owed v late) (u : Use κ) : (d.use u).Owed v late := by
  obtain ⟨hmade, hpending, hsurvives⟩ := h
  refine ⟨List.mem_append_left _ hmade, fun hv => ?_, ?_⟩
  · rcases hd.mem_pendingViews_use u hv with hold | hnewer
    · exact hpending hold
    · exact absurd (hnewer v hmade) (lt_irrefl _)
  · rcases hsurvives with hsurvives | ⟨⟨w, hw, hw'⟩, hlate⟩
    · refine .inl (hsurvives.mono fun w hw => ?_)
      simp only [cleared, settled, Daybook.use, List.mem_append] at hw ⊢
      tauto
    · -- A view that was pending was taken out, or it is pending still.
      have hmem := (u.shift d.queue).views.mem_iff.mp
        (List.mem_append_right (u.opens d.queue) hw)
      rcases List.mem_append.mp hmem with htaken | hstill
      · refine .inl ⟨w, ?_, hw'⟩
        simp [cleared, settled, Daybook.use, htaken]
      · exact .inr ⟨⟨w, hstill, hw'⟩, hlate⟩

/-- Whatever is outstanding when a completion is added can be owed to it. -/
theorem of_outstanding (hd : d.Sound) (hv : v ∈ d.outstanding) (hlate : late) : d.Owed v late := by
  refine ⟨hd.mem_made.mpr (.inr (.inr (.inr hv))), fun _ => hlate, ?_⟩
  rcases List.mem_append.mp hv with hflight | hpending
  · exact .inl (.of_mem (List.mem_append_right _ hflight))
  · exact .inr ⟨.of_mem hpending, hlate⟩

theorem start (h : d.Owed v late) (hstage : d.stage = .idle) : d.start.Owed v late' := by
  obtain ⟨hmade, -, hsurvives⟩ := h
  refine ⟨hmade, fun hv => ?_, .inl ?_⟩
  · simp [Daybook.start] at hv
  · rcases hsurvives with hsurvives | ⟨hsurvives, -⟩
    · refine hsurvives.mono fun w hw => ?_
      simp only [hstage, Stage.inFlight_idle, List.append_nil] at hw
      exact List.mem_append_left _ hw
    · exact hsurvives.mono fun w hw => List.mem_append_right _ hw

theorem accept {w : View} {chunk : Chunk} {rest : List View} (h : d.Owed v late)
    (hstage : d.stage = .offering w chunk rest) : (d.accept w chunk rest).Owed v late := by
  refine ⟨h.made, h.pending, h.survives.imp_left fun hsurvives => hsurvives.mono fun u hu => ?_⟩
  simp only [cleared, settled, hstage, Daybook.accept, Stage.inFlight_offering,
    Stage.inFlight_handing, List.map_append, List.map_cons, List.map_nil, List.mem_append,
    List.mem_cons, List.not_mem_nil] at hu ⊢
  tauto

/-- What is not put back has a newer buffer of its chunk in its place. -/
theorem refuse {w : View} {chunk : Chunk} {rest : List View} (hd : d.Sound) (h : d.Owed v late)
    (hstage : d.stage = .offering w chunk rest) (hlate : late') :
    (d.refuse w rest).Owed v late' := by
  obtain ⟨hsorted, hbuffer⟩ := hd.inFlight_spec
  have hsuccession := hd.succession
  simp only [outstanding, hstage, Stage.inFlight_offering] at hsorted hbuffer hsuccession
  have hback : ∀ u : View, u ∈ (d.refuse w rest).queue.pendingViews ↔ _ := fun u =>
    Queue.mem_pendingViews_putBack hsorted hbuffer
  have hstill : ∀ u ∈ d.queue.pendingViews, u ∈ (d.refuse w rest).queue.pendingViews :=
    fun u hu => (hback u).mpr (.inl hu)
  refine ⟨h.made, fun _ => hlate, ?_⟩
  rcases h.survives with ⟨u, hu, hu'⟩ | ⟨hsurvives, -⟩
  · rcases List.mem_append.mp hu with hcleared | hflight
    · exact .inl ⟨u, List.mem_append_left _ hcleared, hu'⟩
    · refine .inr ⟨View.SurvivesIn.trans ⟨u, List.mem_singleton_self u, hu'⟩ fun u' hu' => ?_, hlate⟩
      obtain rfl := List.mem_singleton.mp hu'
      rw [hstage] at hflight
      cases hnow : d.queue.pendingView? u'.coord with
      | none => exact .of_mem ((hback u').mpr (.inr ⟨hflight, hnow⟩))
      | some newer =>
          obtain ⟨hnewer, hcoord⟩ := Queue.pendingView?_eq_some.mp hnow
          rw [List.pairwise_append, List.pairwise_append] at hsuccession
          exact ⟨newer, hstill newer hnewer, hcoord,
            (hsuccession.2.1.2.2 u' hflight newer hnewer hcoord.symm).le⟩
  · exact .inr ⟨hsurvives.mono hstill, hlate⟩

theorem abort (h : d.Owed v late) (hlate : late') : d.abort.Owed v late' := by
  refine ⟨h.made, fun _ => hlate, ?_⟩
  rcases h.survives with hsurvives | ⟨hsurvives, -⟩
  · refine .inl (hsurvives.mono fun u hu => ?_)
    simp only [cleared, Daybook.abort, settled, Stage.inFlight_idle, List.mem_append] at hu ⊢
    tauto
  · exact .inr ⟨hsurvives, hlate⟩

end Owed

/-! ### All promises -/

namespace Promising

theorem new (world : String) : (new world : Daybook κ).Promising := by
  constructor <;> simp [Daybook.new]

theorem use (hd : d.Sound) (h : d.Promising) (u : Use κ) : (d.use u).Promising := by
  constructor
  case round_le =>
    intro p hp
    simp only [Daybook.use, List.mem_append, List.mem_map] at hp
    rcases hp with (hold | ⟨_, _, rfl⟩) | hdue
    · exact h.round_le p (List.mem_append_left _ hold)
    · exact le_rfl
    · exact h.round_le p (List.mem_append_right _ hdue)
  case waiting =>
    intro p hp v hv
    simp only [Daybook.use, List.mem_append, List.mem_map] at hp
    rcases hp with hold | ⟨_, _, rfl⟩
    · exact (h.waiting p hold v hv).use hd u
    · exact (Owed.of_outstanding hd hv fun _ => rfl).use hd u
  case due => exact fun p hp v hv => (h.due p hp v hv).use hd u

/-- Only while completions run is any of them due. -/
theorem due_eq_nil (hd : d.Sound) (hstage : d.stage.completions = []) : d.due = [] := by
  have hdue := hd.due
  rwa [hstage, List.map_eq_nil_iff] at hdue

theorem start (hd : d.Sound) (h : d.Promising) (hstage : d.stage = .idle) : d.start.Promising := by
  have hnone := due_eq_nil hd (by rw [hstage]; rfl)
  constructor
  case round_le => exact fun p hp => Nat.le_succ_of_le (h.round_le p hp)
  case waiting => exact fun p hp v hv => (h.waiting p hp v hv).start hstage
  case due => simp [Daybook.start, hnone]

theorem offer (h : d.Promising) {w : View} {rest : List View}
    (hstage : d.stage = .handing (w :: rest)) : (d.offer w rest).Promising := by
  have hflight : (d.offer w rest).stage.inFlight = d.stage.inFlight := by rw [hstage]; rfl
  constructor
  case round_le => exact h.round_le
  case waiting =>
    intro p hp v hv
    refine (h.waiting p hp v hv).of_frame rfl rfl hflight fun hlate _ => hlate ?_
    simp [hstage, Stage.isHanding]
  case due => exact fun p hp v hv => (h.due p hp v hv).of_frame rfl rfl hflight id

theorem accept (h : d.Promising) {w : View} {chunk : Chunk} {rest : List View}
    (hstage : d.stage = .offering w chunk rest) : (d.accept w chunk rest).Promising := by
  constructor
  case round_le => exact h.round_le
  case waiting =>
    intro p hp v hv
    refine ((h.waiting p hp v hv).accept hstage).imp fun hlate _ => hlate ?_
    simp [hstage, Stage.isHanding]
  case due => exact fun p hp v hv => (h.due p hp v hv).accept hstage

/-- After a refusal anything that is owed may be pending again, and no flush has the rest of it. -/
theorem refuse (hd : d.Sound) (h : d.Promising) {w : View} {chunk : Chunk} {rest : List View}
    (hstage : d.stage = .offering w chunk rest) : (d.refuse w rest).Promising := by
  have hnone := due_eq_nil hd (by rw [hstage]; rfl)
  constructor
  case round_le => exact h.round_le
  case waiting =>
    intro p hp v hv
    exact (h.waiting p hp v hv).refuse hd hstage (by simp [Daybook.refuse, Stage.isHanding])
  case due => simp [Daybook.refuse, hnone]

theorem release (h : d.Promising) (hstage : d.stage = .handing []) : d.release.Promising := by
  have hflight : d.release.stage.inFlight = d.stage.inFlight := by rw [hstage]; rfl
  constructor
  case round_le => exact fun p hp => h.round_le p (List.mem_append_left _ hp)
  case waiting => simp [Daybook.release]
  case due =>
    intro p hp v hv
    refine (h.waiting p hp v hv).of_frame rfl rfl hflight fun hlate => hlate ?_
    simp [hstage, Stage.isHanding]

theorem complete (h : d.Promising) {completion : κ} {rest : List κ}
    (hstage : d.stage = .completing (completion :: rest)) : (d.complete rest).Promising := by
  have hflight : (d.complete rest).stage.inFlight = d.stage.inFlight := by rw [hstage]; rfl
  have htail : ∀ p ∈ d.due.tail, p ∈ d.due := fun p hp => List.mem_of_mem_tail hp
  constructor
  case round_le =>
    intro p hp
    exact h.round_le p (List.mem_append.mpr ((List.mem_append.mp hp).imp_right (htail p)))
  case waiting =>
    intro p hp v hv
    refine (h.waiting p hp v hv).of_frame rfl rfl hflight fun _ => ?_
    simp [Daybook.complete, Stage.isHanding]
  case due => exact fun p hp v hv => (h.due p (htail p hp) v hv).of_frame rfl rfl hflight id

theorem finish (h : d.Promising) (hstage : d.stage = .completing []) : d.finish.Promising := by
  have hflight : d.finish.stage.inFlight = d.stage.inFlight := by rw [hstage]; rfl
  constructor
  case round_le => exact h.round_le
  case waiting =>
    intro p hp v hv
    refine (h.waiting p hp v hv).of_frame rfl rfl hflight fun _ => ?_
    simp [Daybook.finish, Stage.isHanding]
  case due => exact fun p hp v hv => (h.due p hp v hv).of_frame rfl rfl hflight id

theorem abort (h : d.Promising) : d.abort.Promising := by
  constructor
  case round_le =>
    intro p hp
    exact h.round_le p (List.mem_append_left _ (by simpa [Daybook.abort] using hp))
  case waiting =>
    intro p hp v hv
    exact (h.waiting p hp v hv).abort (by simp [Daybook.abort, Stage.isHanding])
  case due => simp [Daybook.abort]

theorem flush (hd : d.Sound) (h : d.Promising) (hstep : FlushStep d d') : d'.Promising := by
  cases hstep with
  | start hstage => exact h.start hd hstage
  | offer hstage => exact h.offer hstage
  | accept hstage => exact h.accept hstage
  | refuse hstage => exact h.refuse hd hstage
  | release hstage => exact h.release hstage
  | complete hstage => exact h.complete hstage
  | finish hstage => exact h.finish hstage

theorem step (hd : d.Sound) (h : d.Promising) (hstep : Step d d') : d'.Promising := by
  cases hstep with
  | use u => exact h.use hd u
  | flush hflush => exact h.flush hd hflush
  | abort _ => exact h.abort

end Promising

/-- **Every promise is kept as far as it can be**, in whatever state the steps lead to. -/
theorem Reachable.promising {world : String} (h : Reachable world d) : d.Promising := by
  induction h with
  | refl => exact .new world
  | tail hsteps hstep ih => exact ih.step (Reachable.sound hsteps) hstep

/-- **What a completion can rely on when it runs.** All it is owed was accepted or taken out unless
something of it was replaced by a newer buffer, was lost, or is pending. If it was added before the
flush began that runs it, nothing that it is owed is pending, and of each chunk that it is owed this
buffer or a newer one was accepted, taken out or lost. -/
theorem completion_waits {world : String} {completion : κ} {rest : List κ}
    (h : Reachable world d) (hstage : d.stage = .completing (completion :: rest)) :
    ∃ p later, d.due = p :: later ∧ p.completion = completion ∧ p.round ≤ d.rounds ∧
      ((∀ v ∈ p.owed, v ∈ d.settled) ↔
        ∀ v ∈ p.owed, v ∉ d.replaced ∧ v ∉ d.lost ∧ v ∉ d.queue.pendingViews) ∧
      (p.round < d.rounds → ∀ v ∈ p.owed,
        v ∉ d.queue.pendingViews ∧ v.SurvivesIn (d.settled ++ d.lost)) := by
  have hsound := h.sound
  obtain ⟨hround, -, hdue⟩ := h.promising
  have hcompletions := hsound.due
  rw [hstage] at hcompletions
  obtain ⟨p, later, heq, hp, -⟩ := List.map_eq_cons_iff.mp hcompletions
  have hmem : p ∈ d.due := heq ▸ List.mem_cons_self
  have houtstanding : d.outstanding = d.queue.pendingViews := by simp [outstanding, hstage]
  refine ⟨p, later, heq, hp, hround p (List.mem_append_right _ hmem), ?_, fun hearlier v hv => ?_⟩
  · refine forall₂_congr fun v hv => ?_
    have hplace := hsound.mem_made.mp (hdue p hmem v hv).made
    have hnodup := hsound.nodup
    rw [houtstanding] at hplace hnodup
    simp only [List.nodup_append', List.disjoint_append_left] at hnodup
    obtain ⟨⟨⟨-, -, hreplaced⟩, -, hlost, -⟩, -, ⟨hpending, -⟩, -⟩ := hnodup
    constructor
    · exact fun hsettled => ⟨hreplaced hsettled, hlost hsettled, hpending hsettled⟩
    · tauto
  · have howed := hdue p hmem v hv
    refine ⟨fun hpending => hearlier.ne (howed.pending hpending), ?_⟩
    rcases howed.survives with hsurvives | ⟨-, hnow⟩
    · simpa [hstage, cleared] using hsurvives
    · exact absurd hnow hearlier.ne

/-- A completion that is added behind its chunk and runs when the chunk was accepted. -/
def patient : Daybook Nat :=
  let d : Daybook Nat := ((new "plotworld").use (.forChunk ⟨0, 0⟩)).use (.addCompletion 7)
  ((d.start.offer ⟨⟨0, 0⟩, 0⟩ []).accept ⟨⟨0, 0⟩, 0⟩ (.empty ⟨0, 0⟩) []).release

theorem reachable_patient : Reachable "plotworld" patient :=
  Relation.ReflTransGen.refl
    |>.tail (.use _ (.forChunk ⟨0, 0⟩))
    |>.tail (.use _ (.addCompletion 7))
    |>.tail (.flush (.start rfl))
    |>.tail (.flush (.offer (show Daybook.stage _ = .handing [⟨⟨0, 0⟩, 0⟩] from rfl)))
    |>.tail (.flush (.accept (show Daybook.stage _ = .offering ⟨⟨0, 0⟩, 0⟩ _ [] from rfl)))
    |>.tail (.flush (.release rfl))

theorem completion_waits_patient :
    patient.stage = .completing [7] ∧
    ∃ p later, patient.due = p :: later ∧ p.completion = 7 ∧ p.round ≤ patient.rounds ∧
      ((∀ v ∈ p.owed, v ∈ patient.settled) ↔
        ∀ v ∈ p.owed, v ∉ patient.replaced ∧ v ∉ patient.lost ∧ v ∉ patient.queue.pendingViews) ∧
      (p.round < patient.rounds → ∀ v ∈ p.owed,
        v ∉ patient.queue.pendingViews ∧ v.SurvivesIn (patient.settled ++ patient.lost)) :=
  ⟨rfl, completion_waits reachable_patient rfl⟩

/-- A completion that is added while a flush hands chunks over. The chunk at (5, 5) is pending by
then, but it was not when the flush began. -/
def hurried : Daybook Nat :=
  let d : Daybook Nat := ((new "plotworld").use (.forChunk ⟨0, 0⟩)).start.offer ⟨⟨0, 0⟩, 0⟩ []
  (((d.use (.forChunk ⟨5, 5⟩)).use (.addCompletion 7)).accept ⟨⟨0, 0⟩, 0⟩ (.empty ⟨0, 0⟩) []).release

theorem reachable_hurried : Reachable "plotworld" hurried :=
  Relation.ReflTransGen.refl
    |>.tail (.use _ (.forChunk ⟨0, 0⟩))
    |>.tail (.flush (.start rfl))
    |>.tail (.flush (.offer (show Daybook.stage _ = .handing [⟨⟨0, 0⟩, 0⟩] from rfl)))
    |>.tail (.use _ (.forChunk ⟨5, 5⟩))
    |>.tail (.use _ (.addCompletion 7))
    |>.tail (.flush (.accept (show Daybook.stage _ = .offering ⟨⟨0, 0⟩, 0⟩ _ [] from rfl)))
    |>.tail (.flush (.release rfl))

/-- A completion that is added behind its chunk. The receiver is cut off with the chunk in its
hands, and the next flush finds the completion alone. -/
def bereft : Daybook Nat :=
  let d : Daybook Nat := ((new "plotworld").use (.forChunk ⟨0, 0⟩)).use (.addCompletion 7)
  (d.start.offer ⟨⟨0, 0⟩, 0⟩ []).abort.start.release

theorem reachable_bereft : Reachable "plotworld" bereft :=
  Relation.ReflTransGen.refl
    |>.tail (.use _ (.forChunk ⟨0, 0⟩))
    |>.tail (.use _ (.addCompletion 7))
    |>.tail (.flush (.start rfl))
    |>.tail (.flush (.offer (show Daybook.stage _ = .handing [⟨⟨0, 0⟩, 0⟩] from rfl)))
    |>.tail (.abort rfl)
    |>.tail (.flush (.start rfl))
    |>.tail (.flush (.release rfl))

/-- **A completion may run before a chunk that it is owed was accepted**: because the chunk is still
pending, or because it is lost. -/
theorem early_completion :
    (Reachable "plotworld" hurried ∧ hurried.stage = .completing [7] ∧
      ∃ p, hurried.due = [p] ∧ p.completion = 7 ∧
        ∃ v ∈ p.owed, v ∉ hurried.settled ∧ v ∈ hurried.queue.pendingViews) ∧
    Reachable "plotworld" bereft ∧ bereft.stage = .completing [7] ∧
      ∃ p, bereft.due = [p] ∧ p.completion = 7 ∧
        ∃ v ∈ p.owed, v ∉ bereft.settled ∧ v ∈ bereft.lost := by
  refine ⟨⟨reachable_hurried, rfl, ⟨7, [⟨⟨0, 0⟩, 0⟩, ⟨⟨5, 5⟩, 1⟩], 1⟩, rfl, rfl, ?_⟩,
    reachable_bereft, rfl, ⟨7, [⟨⟨0, 0⟩, 0⟩], 0⟩, rfl, rfl, ?_⟩
  · exact ⟨⟨⟨5, 5⟩, 1⟩, by decide, by decide, by decide⟩
  · exact ⟨⟨⟨0, 0⟩, 0⟩, by decide, by decide, by decide⟩

end Daybook

end Cadastre
