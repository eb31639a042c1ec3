import Cadastre.Proofs.Queue.Calls
/-!
# Cadastre.Proofs.Queue.Whole

**What the receiver gets while calls edit chunks.**

The lock of a buffer keeps an edit in one piece: nothing of it is handed over before it is over, and
nothing is done to a buffer that was handed over. So the receiver gets what the edits of the buffer
made of an empty chunk, in the order in which they found it pending (`received_chunk`).

There need not be such an edit. A call makes the buffer of its chunk before it has the lock, and a
flush may take it in between. Then the receiver gets an empty chunk, and the call begins again with
another buffer. Nor need an edit have come to its end: what it did before it was cut off is handed
over like anything else (`premature_chunk`).
-/

namespace Cadastre

variable {κ : Type}

namespace Crew

variable {world : String} {c c' : Crew κ}

/-! ### Locks -/

/-- A crew in which a buffer is edited by one call at a time, and not after it was handed over. -/
structure Locked (c : Crew κ) : Prop where
  alone : ∀ i call, c.calls i = some call → ∀ v, call.standing = .editing v →
    ∀ j other, c.calls j = some other → other.standing = .editing v → j = i
  accepted : ∀ v ∈ c.book.accepted.map Prod.fst, c.Free v
  offered : ∀ v chunk rest, c.book.stage = .offering v chunk rest → c.Free v

namespace Locked

/-- A call that does not begin to edit takes no lock. -/
theorem turn (h : c.Locked) (i : Nat) (call : Call) (hcall : ∀ v, call.standing ≠ .editing v) :
    (c.turn i call).Locked := by
  constructor
  case alone =>
    refine forall_turn (fun v hv => absurd hv (hcall v)) ?_
    intro j other _ hj v hv
    refine forall_turn (fun hv => absurd hv (hcall v)) ?_
    intro k third _ hk
    exact h.alone j other hj v hv k third hk
  case accepted =>
    intro v hv
    exact (h.accepted v hv).turn (hcall v)
  case offered =>
    intro v chunk rest hstage
    exact (h.offered v chunk rest hstage).turn (hcall v)

/-- Only the calls, what was accepted and what the receiver has in its hands matter. -/
theorem of_frame (h : c.Locked) (hcalls : c'.calls = c.calls)
    (hbook : (c'.book.accepted, c'.book.stage) = (c.book.accepted, c.book.stage)) : c'.Locked := by
  obtain ⟨haccepted, hstage⟩ := Prod.mk.inj hbook
  constructor
  case alone => simpa [hcalls] using h.alone
  case accepted => simpa [Free, haccepted, hcalls] using h.accepted
  case offered => simpa [Free, hstage, hcalls] using h.offered

/-- What is pending is with nobody else, neither with the receiver nor on the way to it. -/
theorem enter (hd : c.book.Sound) (h : c.Locked) {i : Nat} {coord : ChunkCoord} {edit : ChunkEdit}
    {v : View} (hfree : c.Free v) (hpending : v ∈ c.book.queue.pendingViews) :
    (c.enter i coord edit v).Locked := by
  obtain ⟨-, haccepted, hflight⟩ := hd.of_pending hpending
  constructor
  case alone =>
    refine forall_turn ?_ ?_
    · intro w hw
      cases hw
      exact forall_turn (fun _ => rfl) fun k third _ hk hv => absurd hv (hfree k third hk)
    · intro j other _ hj w hw
      refine forall_turn ?_ fun k third _ => h.alone j other hj w hw k third
      intro hsame
      cases hsame
      exact absurd hw (hfree j other hj)
  case accepted =>
    intro w hw
    refine (h.accepted w hw).turn ?_
    intro hsame
    cases hsame
    exact haccepted hw
  case offered =>
    intro w chunk rest hstage
    refine (h.offered w chunk rest hstage).turn ?_
    intro hsame
    cases hsame
    rw [show c.book.stage = _ from hstage] at hflight
    exact hflight List.mem_cons_self

/-- A flush hands nothing over that is being edited. -/
theorem flush (h : c.Locked) {book : Daybook κ} (hflush : c.book.FlushStep book)
    (hfree : ∀ v rest, c.book.stage = .handing (v :: rest) → c.Free v) :
    ({ c with book } : Crew κ).Locked := by
  constructor
  case alone => exact h.alone
  case accepted =>
    intro v hv
    cases hflush with
    | accept hoffering =>
        simp only [Daybook.accept, List.map_append, List.mem_append, List.map_cons,
          List.map_nil, List.mem_singleton] at hv
        rcases hv with hold | rfl
        · exact h.accepted v hold
        · exact h.offered _ _ _ hoffering
    | _ => exact h.accepted v hv
  case offered =>
    intro v chunk rest hstage
    cases hflush with
    | offer hhanding =>
        cases hstage
        exact hfree v rest hhanding
    | _ => cases hstage

theorem step (hd : c.book.Sound) (h : c.Locked) (hstep : Step c c') : c'.Locked := by
  cases hstep with
  | call coord edit _ => exact h.turn _ _ (by simp)
  | look _ => exact (h.turn _ ⟨_, _, .found _⟩ (by simp)).of_frame rfl rfl
  | enter _ hfree hpending => exact h.enter hd hfree (Queue.isPending_iff.mp hpending)
  | retry _ _ _ => exact h.turn _ _ (by simp)
  | finish _ => exact (h.turn _ ⟨_, _, .done _⟩ (by simp)).of_frame rfl rfl
  | flush hflush hfree => exact h.flush hflush hfree

end Locked

theorem Reachable.locked (h : Reachable world c) : c.Locked := by
  induction h with
  | refl => constructor <;> simp [new, Daybook.new]
  | tail hsteps hstep ih => exact ih.step (Reachable.book hsteps).sound hstep

/-! ### What was handed over -/

/-- A buffer changes only while somebody edits it. -/
theorem Step.content (hd : c.book.Sound) (hp : c.Placed) (h : Step c c') {u : View}
    (hu : u ∈ c.book.made) (hfree : c.Free u) :
    c'.book.queue.content u = c.book.queue.content u := by
  cases h with
  | call _ _ _ => rfl
  | look _ => exact Queue.content_forChunk _ (hd.buffer_lt hu)
  | enter _ _ _ => rfl
  | retry _ _ _ => rfl
  | @finish i coord edit v hi =>
      have hv := (hp.views i _ hi v rfl).1
      have hne : v.buffer ≠ u.buffer := by
        intro hbuffer
        rw [hd.eq_of_buffer hv hu hbuffer] at hi
        exact hfree i _ hi rfl
      exact (Queue.content_store_of_lt (hd.buffer_lt hv) _ u).trans (if_neg hne)
  | flush hflush _ => simp [Queue.content, hflush.keeps.1]

end Crew

/-- A daybook in which what was handed over is still in its buffer. -/
structure Daybook.Delivered (d : Daybook κ) : Prop where
  accepted : ∀ e ∈ d.accepted, d.queue.content e.1 = e.2
  offered : ∀ v chunk rest, d.stage = .offering v chunk rest → d.queue.content v = chunk

theorem Daybook.Delivered.flush {d d' : Daybook κ} (h : d.Delivered) (hstep : FlushStep d d') :
    d'.Delivered := by
  have hcontent : ∀ v : View, d'.queue.content v = d.queue.content v := by
    simp [Queue.content, hstep.keeps.1]
  constructor
  case accepted =>
    intro e he
    rw [hcontent]
    cases hstep with
    | accept hoffering =>
        rcases List.mem_append.mp he with hold | hnew
        · exact h.accepted e hold
        · rw [List.mem_singleton.mp hnew]
          exact h.offered _ _ _ hoffering
    | _ => exact h.accepted e he
  case offered =>
    intro v chunk rest hstage
    rw [hcontent]
    cases hstep with
    | offer _ =>
        cases hstage
        rfl
    | _ => cases hstage

namespace Crew

variable {world : String} {c c' : Crew κ}

theorem delivered_step (hd : c.book.Sound) (hp : c.Placed) (hl : c.Locked) (h : c.book.Delivered)
    (hstep : Step c c') : c'.book.Delivered := by
  rcases hstep.stage with ⟨hstage, hbooks⟩ | hflush
  · constructor
    case accepted =>
      intro e he
      rw [hbooks] at he
      have hmem := List.mem_map_of_mem (f := Prod.fst) he
      have hmade := hd.mem_made.mpr (.inl (List.mem_append_left _ hmem))
      rw [hstep.content hd hp hmade (hl.accepted _ hmem), h.accepted e he]
    case offered =>
      intro v chunk rest hoffering
      rw [hstage] at hoffering
      have hout : v ∈ c.book.outstanding := by simp [Daybook.outstanding, hoffering]
      have hmade := hd.mem_made.mpr (.inr (.inr (.inr hout)))
      rw [hstep.content hd hp hmade (hl.offered v chunk rest hoffering),
        h.offered v chunk rest hoffering]
  · exact h.flush hflush

theorem Reachable.delivered (h : Reachable world c) : c.book.Delivered := by
  induction h with
  | refl => constructor <;> simp [new, Daybook.new]
  | tail hsteps hstep ih =>
      have hbefore : Reachable world _ := hsteps
      exact delivered_step hbefore.book.sound hbefore.placed hbefore.locked ih hstep

/-! ### Edits and writes -/

/-- A crew whose edits are written to their buffers in the order in which they began. An edit that
is not over is not written yet, and it is the last. -/
structure Logged (c : Crew κ) : Prop where
  free : ∀ v ∈ c.book.made, c.Free v → c.entered v = c.book.written v.buffer
  editing : ∀ i call, c.calls i = some call → ∀ v, call.standing = .editing v →
    c.entered v = c.book.written v.buffer ++ [call.edit]

namespace Logged

/-- A call that neither holds a lock nor takes one. -/
theorem turn (h : c.Logged) (i : Nat) (call : Call) (hcall : ∀ v, call.standing ≠ .editing v)
    (hi : ∀ old, c.calls i = some old → ∀ v, old.standing ≠ .editing v) :
    (c.turn i call).Logged := by
  constructor
  case free =>
    intro v hv hfree
    exact h.free v hv (free_of_turn hfree fun old hold => hi old hold v)
  case editing =>
    exact forall_turn (fun v hv => absurd hv (hcall v)) fun j other _ hj => h.editing j other hj

/-- A buffer that has just been made is neither edited nor written to. -/
theorem look (hr : c.book.Recorded) (hd : c.book.Sound) (hp : c.Placed) (h : c.Logged) {i : Nat}
    {coord : ChunkCoord} {edit : ChunkEdit} (hi : c.calls i = some ⟨coord, edit, .waiting⟩) :
    (c.look i coord edit).Logged := by
  obtain ⟨hfree, hediting⟩ := h.turn i ⟨coord, edit, .found (c.book.queue.forChunk coord).1⟩
    (by simp) (forall_call hi (by simp))
  constructor
  case free =>
    intro v hv hnobody
    show c.entered v = (c.book.use (.forChunk coord)).written v.buffer
    rw [Daybook.written_forChunk]
    rcases List.mem_append.mp hv with hold | hnew
    · exact hfree v hold hnobody
    · have hfresh := Queue.le_of_mem_opened hnew
      rw [hr.written_eq_nil hfresh]
      simp only [entered, List.map_eq_nil_iff, List.filter_eq_nil_iff, decide_eq_true_eq]
      intro e he hsame
      exact (hd.buffer_lt (hp.order e he)).not_ge (hsame ▸ hfresh)
  case editing =>
    intro j other hj v hv
    show c.entered v = (c.book.use (.forChunk coord)).written v.buffer ++ [other.edit]
    rw [Daybook.written_forChunk]
    exact hediting j other hj v hv

theorem enter (h : c.Logged) (hp : c.Placed) {i : Nat} {coord : ChunkCoord} {edit : ChunkEdit}
    {v : View} (hi : c.calls i = some ⟨coord, edit, .found v⟩) (hnobody : c.Free v) :
    (c.enter i coord edit v).Logged := by
  have hentered : ∀ w, (c.enter i coord edit v).entered w =
      if v = w then c.entered w ++ [edit] else c.entered w := by
    intro w
    by_cases hsame : v = w
    · simp [entered, Crew.enter, hsame]
    · simp [entered, Crew.enter, hsame]
  constructor
  case free =>
    intro w hw hfree
    have hne : v ≠ w := by
      intro hsame
      exact hfree i ⟨coord, edit, .editing v⟩ (by simp [Crew.enter, Crew.turn]) (by rw [hsame])
    rw [hentered, if_neg hne]
    exact h.free w hw (free_of_turn hfree (forall_call hi (by simp)))
  case editing =>
    refine forall_turn ?_ ?_
    · intro w hw
      cases hw
      rw [hentered, if_pos rfl, h.free v (hp.views i _ hi v rfl).1 hnobody]
      rfl
    · intro j other _ hj w hw
      have hne : v ≠ w := by
        intro hsame
        exact hnobody j other hj (hsame ▸ hw)
      rw [hentered, if_neg hne]
      exact h.editing j other hj w hw

theorem finish (hd : c.book.Sound) (hp : c.Placed) (hl : c.Locked) (h : c.Logged) {i : Nat}
    {coord : ChunkCoord} {edit : ChunkEdit} {v : View}
    (hi : c.calls i = some ⟨coord, edit, .editing v⟩) : (c.finish i coord edit v).Logged := by
  have hv := (hp.views i _ hi v rfl).1
  have hwritten : ∀ w ∈ c.book.made, (c.finish i coord edit v).book.written w.buffer =
      if v = w then c.book.written w.buffer ++ [edit] else c.book.written w.buffer := by
    intro w hw
    refine (Daybook.written_write (hd.buffer_lt hv) edit w.buffer).trans (if_congr ?_ rfl rfl)
    exact ⟨hd.eq_of_buffer hv hw, congrArg View.buffer⟩
  constructor
  case free =>
    intro w hw hfree
    replace hw : w ∈ c.book.made := by simpa [Crew.finish, Daybook.use, Use.opens] using hw
    rw [hwritten w hw]
    by_cases hsame : v = w
    · rw [if_pos hsame, ← hsame]
      exact h.editing i _ hi v rfl
    · rw [if_neg hsame]
      exact h.free w hw (free_of_turn hfree (forall_call hi (by simpa using hsame)))
  case editing =>
    refine forall_turn (by simp) ?_
    intro j other hne hj w hw
    have hsame : v ≠ w := by
      intro hsame
      exact hne (hl.alone i _ hi v rfl j other hj (hsame ▸ hw))
    rw [hwritten w (hp.views j other hj w (by simp [hw, Standing.view?])).1, if_neg hsame]
    exact h.editing j other hj w hw

theorem step (hr : c.book.Recorded) (hd : c.book.Sound) (hp : c.Placed) (hl : c.Locked)
    (h : c.Logged) (hstep : Step c c') : c'.Logged := by
  cases hstep with
  | call coord edit hi => exact h.turn _ _ (by simp) fun old hold => by simp [hi] at hold
  | look hi => exact h.look hr hd hp hi
  | enter hi hfree _ => exact h.enter hp hi hfree
  | retry hi _ _ => exact h.turn _ _ (by simp) (forall_call hi (by simp))
  | finish hi => exact h.finish hd hp hl hi
  | @flush book hflush _ =>
      obtain ⟨-, hmade, hwrites, -⟩ := hflush.keeps
      have hwritten : ∀ buffer, book.written buffer = c.book.written buffer := by
        simp [Daybook.written, hwrites]
      constructor
      case free =>
        intro v hv hfree
        exact (h.free v (hmade ▸ hv) hfree).trans (hwritten _).symm
      case editing =>
        intro i call hi v hv
        show c.entered v = book.written v.buffer ++ [call.edit]
        rw [hwritten]
        exact h.editing i call hi v hv

end Logged

theorem Reachable.logged (h : Reachable world c) : c.Logged := by
  induction h with
  | refl => constructor <;> simp [new, Daybook.new]
  | tail hsteps hstep ih =>
      have hbefore : Reachable world _ := hsteps
      exact ih.step hbefore.book.recorded hbefore.book.sound hbefore.placed hbefore.locked hstep

/-! ### Calls under way -/

/-- A crew in which of each chunk that has a buffer one as new was edited, or a call has still to
edit the chunk. -/
def Covered (c : Crew κ) : Prop :=
  ∀ u ∈ c.book.made, c.Underway u.coord ∨ ∃ e ∈ c.order, e.1.coord = u.coord ∧ u.buffer ≤ e.1.buffer

/-- A call that turns remains under way, unless it was not before. -/
theorem Underway.turn {coord : ChunkCoord} (h : c.Underway coord) {i : Nat} {call : Call}
    (hi : ∀ old, c.calls i = some old → old.coord = coord → old.standing.isUnderway = true →
      call.coord = coord ∧ call.standing.isUnderway = true) : (c.turn i call).Underway coord := by
  obtain ⟨j, other, hj, hcoord, hunderway⟩ := h
  by_cases hsame : j = i
  · subst hsame
    exact ⟨j, call, by simp [Crew.turn], hi other hj hcoord hunderway⟩
  · exact ⟨j, other, by simp [Crew.turn, hsame, hj], hcoord, hunderway⟩

theorem Covered.step (hd : c.book.Sound) (hs : c.book.Superseded) (hp : c.Placed)
    (h : c.Covered) (hstep : Step c c') : c'.Covered := by
  intro u hu
  cases hstep with
  | call coord edit hi =>
      exact (h u hu).imp_left fun hunder => hunder.turn fun old hold => by simp [hi] at hold
  | @look i coord edit hi =>
      rcases List.mem_append.mp hu with hold | hnew
      · refine (h u hold).imp_left fun hunder => hunder.turn (forall_call hi ?_)
        exact fun hcoord _ => ⟨hcoord, rfl⟩
      · exact .inl ⟨i, _, Function.update_self .., (Queue.coord_of_mem_opened hnew).symm, rfl⟩
  | @enter i coord edit v hi _ hpending =>
      by_cases hsame : u.coord = v.coord
      · -- The buffer that is edited now is pending, so there is none as new of its chunk.
        refine .inr ⟨(v, edit), List.mem_append_right _ List.mem_cons_self, hsame.symm, ?_⟩
        refine hd.le_of_pending hs hu ?_ ?_ (Queue.isPending_iff.mp hpending) hsame
        · simp [hp.taken]
        · simp [hp.lost]
      · rcases h u hu with hunder | ⟨e, he, hentry⟩
        · refine .inl (hunder.turn (forall_call hi fun hcoord _ => ?_))
          exact absurd (hcoord.symm.trans (hp.views i _ hi v rfl).2.symm) hsame
        · exact .inr ⟨e, List.mem_append_left _ he, hentry⟩
  | @retry i coord edit v hi _ _ =>
      refine (h u hu).imp_left fun hunder => hunder.turn (forall_call hi ?_)
      exact fun hcoord _ => ⟨hcoord, rfl⟩
  | @finish i coord edit v hi =>
      replace hu : u ∈ c.book.made := by simpa [finish, Daybook.use, Use.opens] using hu
      refine (h u hu).imp_left fun hunder => hunder.turn (forall_call hi ?_)
      simp [Standing.isUnderway]
  | flush hflush _ => exact h u (hflush.keeps.2.1 ▸ hu)

theorem Reachable.covered (h : Reachable world c) : c.Covered := by
  induction h with
  | refl => simp [Covered, new, Daybook.new]
  | tail hsteps hstep ih =>
      have hbefore : Reachable world _ := hsteps
      exact ih.step hbefore.book.sound hbefore.book.superseded hbefore.placed hstep

/-! ### What the receiver gets -/

/-- **What the receiver gets** of a chunk that calls edit: what the edits of the buffer made of an
empty chunk, in order, each of them over. If none of them was cut off, one of them came to its end,
or else nobody edited the buffer, and a call has still to edit the chunk or has edited a newer
buffer of it. -/
theorem received_chunk {v : View} {chunk : Chunk} {rest : List View} (h : Reachable world c)
    (hstage : c.book.stage = .offering v chunk rest) :
    c.Free v ∧ chunk = ChunkEdit.applyAll (c.entered v) (.empty v.coord) ∧
      ((∀ e ∈ c.entered v, ∀ k : Chunk, k.Valid → e.completes k = true) →
        c.Whole v ∨ chunk = .empty v.coord ∧
          (c.Underway v.coord ∨ ∃ e ∈ c.order, e.1.coord = v.coord ∧ v.buffer < e.1.buffer)) := by
  have hfree := h.locked.offered v chunk rest hstage
  have hout : v ∈ c.book.outstanding := by simp [Daybook.outstanding, hstage]
  have hmade := h.book.sound.mem_made.mpr (.inr (.inr (.inr hout)))
  have hchunk : chunk = ChunkEdit.applyAll (c.entered v) (.empty v.coord) := by
    rw [← h.delivered.offered v chunk rest hstage, h.book.recorded.content v hmade,
      h.logged.free v hmade hfree]
  refine ⟨hfree, hchunk, fun hcompletes => ?_⟩
  cases hentered : c.entered v with
  | cons e after =>
      refine .inl ⟨[], e, after, hentered, ?_⟩
      exact hcompletes e (by simp [hentered]) _ (Chunk.valid_empty _)
  | nil =>
      refine .inr ⟨by rw [hchunk, hentered, ChunkEdit.applyAll_nil], ?_⟩
      rcases h.covered v hmade with hunderway | ⟨e, he, hcoord, hle⟩
      · exact .inl hunderway
      refine .inr ⟨e, he, hcoord, hle.lt_of_ne fun hbuffer => ?_⟩
      -- An edit of this very buffer would be one that entered it.
      have hsame := h.book.sound.eq_of_buffer hmade (h.placed.order e he) hbuffer
      have hmem : e.2 ∈ c.entered v :=
        List.mem_map_of_mem (List.mem_filter.mpr ⟨he, by simp [hsame]⟩)
      simp [hentered] at hmem

/-- A call asks for a chunk, and a flush takes the buffer before the call has the lock. -/
def hasty : Crew Nat :=
  let edit := ChunkEdit.setBlock 0 1 0 .stone
  let c := ((new "plotworld").turn 0 ⟨⟨0, 0⟩, edit, .waiting⟩).look 0 ⟨0, 0⟩ edit
  { c with book := c.book.start.offer ⟨⟨0, 0⟩, 0⟩ [] }

theorem reachable_hasty : Reachable "plotworld" hasty := by
  have hnew : Reachable "plotworld" (new "plotworld" : Crew Nat) := .refl
  have hcall := hnew.tail (Step.call _ (i := 0) ⟨0, 0⟩ (.setBlock 0 1 0 .stone) rfl)
  have hlook := hcall.tail (Step.look (i := 0) rfl)
  have hstart := hlook.tail (Step.flush (Daybook.FlushStep.start rfl) nofun)
  refine hstart.tail (Step.flush
    (.offer (show Daybook.stage _ = .handing [⟨⟨0, 0⟩, 0⟩] from rfl)) ?_)
  intro v rest _
  have hwaiting : (turn (new "plotworld" : Crew Nat) 0
      ⟨⟨0, 0⟩, .setBlock 0 1 0 .stone, .waiting⟩).Free v := (free_new v).turn nofun
  exact hwaiting.look

/-- A call edits a chunk, and then the chunk is flushed. -/
def single (edit : ChunkEdit) : Crew Nat :=
  let c := (new "plotworld").solo 0 ⟨0, 0⟩ edit
  { c with book := c.book.start.offer ⟨⟨0, 0⟩, 0⟩ [] }

theorem reachable_single (edit : ChunkEdit) : Reachable "plotworld" (single edit) := by
  have hnew : Reachable "plotworld" (new "plotworld" : Crew Nat) := .refl
  have hsolo := hnew.solo (i := 0) rfl ⟨0, 0⟩ edit (free_new _)
  have hstart := hsolo.tail (Step.flush (Daybook.FlushStep.start rfl) nofun)
  refine hstart.tail (Step.flush
    (.offer (show Daybook.stage _ = .handing [⟨⟨0, 0⟩, 0⟩] from rfl)) ?_)
  exact fun v _ _ => (free_new v).solo

theorem stage_single (edit : ChunkEdit) : (single edit).book.stage =
    .offering ⟨⟨0, 0⟩, 0⟩ (edit.apply (.empty ⟨0, 0⟩)) [] := rfl

theorem received_chunk_single :
    let edit := ChunkEdit.setBlock 0 1 0 .stone
    let v : View := ⟨⟨0, 0⟩, 0⟩
    (single edit).book.stage = .offering v (edit.apply (.empty v.coord)) [] ∧
    (single edit).Free v ∧
    edit.apply (.empty v.coord) =
      ChunkEdit.applyAll ((single edit).entered v) (.empty v.coord) ∧
    ((∀ e ∈ (single edit).entered v, ∀ k : Chunk, k.Valid → e.completes k = true) →
      (single edit).Whole v ∨ edit.apply (.empty v.coord) = .empty v.coord ∧
        ((single edit).Underway v.coord ∨
          ∃ e ∈ (single edit).order, e.1.coord = v.coord ∧ v.buffer < e.1.buffer)) :=
  ⟨rfl, received_chunk (reachable_single _) (stage_single _)⟩

/-- **The receiver may get a chunk that no edit has made whole**: an empty one that a call has still
to edit, or what an edit left that was cut off. -/
theorem premature_chunk :
    let v : View := ⟨⟨0, 0⟩, 0⟩
    let edit := (ChunkEdit.setBlock 0 1 0 .stone).cutOff
    (Reachable "plotworld" hasty ∧ hasty.book.stage = .offering v (.empty v.coord) [] ∧
      hasty.Underway v.coord ∧ ¬ hasty.Whole v) ∧
    Reachable "plotworld" (single edit) ∧
      (single edit).book.stage = .offering v (edit.apply (.empty v.coord)) [] ∧
      ¬ (single edit).Whole v := by
  intro v edit
  refine ⟨⟨reachable_hasty, rfl, ⟨0, _, rfl, rfl, rfl⟩, ?_⟩, reachable_single _, rfl, ?_⟩
  · rintro ⟨before, e, after, hentered, -⟩
    have hnone : hasty.entered v = [] := rfl
    simp [hnone] at hentered
  · rintro ⟨before, e, after, hentered, hcompletes⟩
    have hone : (single edit).entered v = [edit] := rfl
    rw [hone, List.singleton_eq_append_iff] at hentered
    rcases hentered with ⟨-, he⟩ | ⟨-, he⟩
    · cases he
      simp [edit] at hcompletes
    · cases he

end Crew

end Cadastre
