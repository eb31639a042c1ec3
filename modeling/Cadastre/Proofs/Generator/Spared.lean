import Cadastre.Generator
import Cadastre.Proofs.Edit
/-!
# Cadastre.Proofs.Generator.Spared

**What requests leave alone.** The state of a site's surroundings is only touched by a generator's
hooks and by the foreign generator behind it. Some part of it that these spare is the same after a
request, whatever becomes of the request (`Generator.spares_request`).
-/

namespace Cadastre

variable {κ σ α γ : Type} {f : σ → γ}

/-! ### Edits around a chunk -/

/-- An edit of a chunk alone leaves the rest of the state alone. -/
theorem Edit.keeps_onFirst {τ : Type} (edit : Edit τ α) :
    (edit.onFirst : Edit (τ × σ) α).Keeps fun t => f t.2 := by
  rintro ⟨c, s⟩
  unfold outcome onFirst
  cases hedit : edit c with
  | ok a c' => simp only [hedit]
  | error e c' => simp only [hedit]

theorem Hosted.keeps_withChunk {coord : ChunkCoord} {edit : Edit (Chunk × σ) α}
    (hedit : edit.Keeps fun t => f t.2) :
    (withChunk coord edit : Edit (Hosted κ σ) α).Keeps fun h => f h.host := by
  intro h
  let v := (h.queue.forChunk coord).1
  let q := (h.queue.forChunk coord).2
  have hfound : onQueue (fun q => q.forChunk coord) h = .ok v { h with queue := q } := rfl
  rw [withChunk, Edit.outcome_bind_of_ok hfound]
  unfold Edit.outcome editBuffer
  cases hrun : edit (q.content v, h.host) with
  | ok a t =>
      simp only
      exact hedit.of_ok hrun
  | error e t =>
      simp only
      exact hedit.of_error hrun

/-- Work on a world's queue leads where the work leads. -/
theorem Site.leads_onQueue {R : σ → σ → Prop} {world : String} {edit : Edit (Hosted κ σ) α}
    (h : edit.Leads fun h h' => R h.host h'.host) :
    (onQueue world edit).Leads fun s s' => R s.host s'.host := by
  intro s
  unfold Edit.outcome onQueue
  cases hrun : edit ⟨s.queue world, s.log, s.host⟩ with
  | ok a h' => exact h.of_ok hrun
  | error e h' => exact h.of_error hrun

theorem Site.keeps_onQueue {world : String} {edit : Edit (Hosted κ σ) α}
    (hedit : edit.Keeps fun h => f h.host) :
    (onQueue world edit).Keeps fun s => f s.host :=
  leads_onQueue (R := fun s s' => f s' = f s) hedit

theorem Site.keeps_addLine (line : LogLine) :
    (addLine line : Edit (Site κ σ) Unit).Keeps fun s => f s.host := fun _ => rfl

/-! ### Foreign generators -/

/-- The chunk that a foreign generator delivers, if it is the one that was asked for. -/
def Foreign.delivered? (foreign : Foreign σ) (world : String) (coord : ChunkCoord) (host : σ) :
    Option Chunk :=
  match (foreign.generate world coord host).1 with
  | .chunk c => if c.coord = coord then some c else none
  | .refusal _ => none
  | .breakdown => none

/-- A foreign generator may do as it likes: what counts is the chunk that it delivers, and something
is logged about it. -/
theorem Generator.askForeign_eq (foreign : Foreign σ) (world : String) (coord : ChunkCoord)
    (s : Site κ σ) : ∃ log, askForeign foreign world coord s =
      .ok (foreign.delivered? world coord s.host)
        { s with host := (foreign.generate world coord s.host).2, log } := by
  let s' := { s with host := (foreign.generate world coord s.host).2 }
  have hasked : (modifyGet fun s : Site κ σ =>
      ((foreign.generate world coord s.host).1,
        { s with host := (foreign.generate world coord s.host).2 }) : Edit (Site κ σ) Delivery) s =
      .ok (foreign.generate world coord s.host).1 s' := rfl
  unfold askForeign Foreign.delivered?
  rw [Edit.bind_of_ok hasked]
  cases (foreign.generate world coord s.host).1 with
  | chunk c =>
      dsimp only
      split
      · exact ⟨_, rfl⟩
      · exact ⟨_, rfl⟩
  | refusal text => exact ⟨_, rfl⟩
  | breakdown => exact ⟨_, rfl⟩

/-! ### Generators -/

/-- Whether a generator leaves some part of the state of its surroundings alone. -/
structure Generator.Spares (g : Generator σ) (f : σ → γ) : Prop where
  foreign : ∀ {foreign}, g.mode = .augmenting foreign →
    ∀ world coord s, f (foreign.generate world coord s).2 = f s
  before : ∀ world, (g.hooks.before world).Keeps fun t => f t.2
  after : ∀ world, (g.hooks.after world).Keeps fun t => f t.2

namespace Generator

theorem spares_replacing : (replacing : Generator σ).Spares f where
  foreign h := by cases h
  before _ := .of_pure false
  after _ := .of_pure false

variable {g : Generator σ}

theorem keeps_askForeign (hg : g.Spares f) {foreign : Foreign σ}
    (hmode : g.mode = .augmenting foreign) (world : String) (coord : ChunkCoord) :
    (askForeign foreign world coord : Edit (Site κ σ) (Option Chunk)).Keeps fun s => f s.host := by
  intro s
  obtain ⟨log, hasked⟩ := askForeign_eq foreign world coord s
  rw [Edit.outcome, hasked]
  exact hg.foreign hmode world coord s.host

theorem keeps_resetTo (c : Chunk) : (resetTo c : Edit (Chunk × σ) Unit).Keeps fun t => f t.2 :=
  fun _ => rfl

theorem keeps_buildAlone (hg : g.Spares f) (a : Area) (m : Merges) (world : String)
    (coord : ChunkCoord) : (buildAlone g.hooks a m world coord).Keeps fun t => f t.2 := by
  unfold buildAlone
  refine (keeps_resetTo _).bind fun _ => (hg.before world).bind fun handled => ?_
  split
  · exact .of_pure _
  · exact (Edit.keeps_onFirst _).bind fun _ => (hg.after world).bind fun _ => .of_pure _

theorem keeps_buildOver (hg : g.Spares f) (a : Area) (m : Merges) (world : String)
    (coord : ChunkCoord) (terrain : Option Chunk) :
    (buildOver g.hooks a m world coord terrain).Keeps fun t => f t.2 := by
  unfold buildOver
  exact (keeps_resetTo _).bind fun _ => (Edit.keeps_onFirst _).bind fun _ =>
    (hg.after world).bind fun _ => .of_pure _

theorem keeps_build (hg : g.Spares f) (world : String) (coord : ChunkCoord) :
    (g.build world coord : Edit (Site κ σ) ChunkOutcome).Keeps fun s => f s.host := by
  unfold build
  refine (Site.keeps_onQueue (.of_pure ())).bind fun _ => Edit.Keeps.get_bind fun s => ?_
  cases s.areas[world]? with
  | none =>
      exact (Site.keeps_addLine _).bind fun _ =>
        (Site.keeps_onQueue (Hosted.keeps_withChunk (keeps_resetTo _))).bind fun _ => .of_pure _
  | some a =>
      refine Edit.Keeps.get_bind fun s => .liftM_bind _ fun m => ?_
      cases hmode : g.mode with
      | replacing =>
          exact Site.keeps_onQueue (Hosted.keeps_withChunk (keeps_buildAlone hg a m world coord))
      | augmenting foreign =>
          exact (keeps_askForeign hg hmode world coord).bind fun terrain =>
            Site.keeps_onQueue
              (Hosted.keeps_withChunk (keeps_buildOver hg a m world coord terrain))

/-- The first request for a world changes only what is known of the generator. -/
theorem keeps_load (world : String) : (load world : Edit (Generator σ × Site κ σ) Unit).Keeps
    fun t => (t.1.mode, t.1.hooks, f t.2.host) := by
  rintro ⟨g, s⟩
  have hregister : (Site.register world g.name : Edit (Site κ σ) Unit).Keeps fun s => f s.host := by
    unfold Site.register
    refine .get_bind fun s => ?_
    split
    · exact .of_pure ()
    · exact Edit.Keeps.bind (fun _ => rfl) fun _ => Site.keeps_addLine _
  unfold Edit.outcome load
  by_cases hloaded : world ∈ g.loaded
  · simp only [if_pos hloaded]
  · simp only [if_neg hloaded]
    cases hrun : Site.register world g.name s with
    | ok u s' => simp only [hregister.of_ok hrun]
    | error e s' => simp only [hregister.of_error hrun]

theorem Spares.congr {g' : Generator σ} (hg : g.Spares f) (hmode : g'.mode = g.mode)
    (hhooks : g'.hooks = g.hooks) : g'.Spares f := by
  refine ⟨fun h => hg.foreign (hmode.symm.trans h), ?_, ?_⟩
  · rw [hhooks]
    exact hg.before
  · rw [hhooks]
    exact hg.after

/-- A request leaves alone what its generator spares, and the generator spares it still. -/
theorem spares_request (hg : g.Spares f) (world : String) (coord : ChunkCoord) (s : Site κ σ) :
    ((request world coord).outcome (g, s)).2.1.Spares f ∧
      f ((request world coord).outcome (g, s)).2.2.host = f s.host := by
  have hload := keeps_load (f := f) (κ := κ) world
  unfold Edit.outcome request
  cases hrun : load world (g, s) with
  | error e t =>
      obtain ⟨hmode, hhooks, hsame⟩ := by simpa only [Prod.mk.injEq] using hload.of_error hrun
      simp only [bind, EStateM.bind, hrun]
      exact ⟨hg.congr hmode hhooks, hsame⟩
  | ok u t =>
      obtain ⟨hmode, hhooks, hsame⟩ := by simpa only [Prod.mk.injEq] using hload.of_ok hrun
      have hg' := hg.congr hmode hhooks
      have hbuild := keeps_build (κ := κ) hg' world coord
      simp only [bind, EStateM.bind, hrun]
      cases hbuilt : t.1.build world coord t.2 with
      | ok outcome s' => exact ⟨hg', (hbuild.of_ok hbuilt).trans hsame⟩
      | error e s' => exact ⟨hg', (hbuild.of_error hbuilt).trans hsame⟩

end Generator

end Cadastre
