import Mathlib.Data.List.Dedup
import Mathlib.Logic.Function.Basic
import Mathlib.Logic.Relation
import Cadastre.Proofs.Generator.Spared
/-!
# Cadastre.Proofs.Generator.Loading

**Worlds are loaded once and for ever.** Any number of generators serve one site, and any number of
requests to them are under way at the same time. Whatever comes between the steps of a request and
whatever becomes of it, two records agree at every moment: a generator knows exactly the worlds that
it was asked for, and the site has for each world the generator that was asked first
(`Service.loaded_once`).

Design points:

* A request begins by loading its world. The generator lets nobody look into its record until the
  world is registered too, so that is one step (`Service.begin`).
* What comes after it is cut into the sections between which others may come (`Progress.advance`).
  `Service.steps_request` shows that a request which nobody interrupts goes by these steps.
* Between the steps of requests the site may change in any way that leaves the register alone: areas
  are given, plots merged, queues flushed.
* A request that is cut off has ended with its failure. Nothing that was loaded is undone.
-/

namespace Cadastre

variable {ι κ σ α : Type}

/-! ### Sections of a request -/

/-- How far a request has come. -/
inductive Progress
  /-- The world is loaded. -/
  | loaded
  /-- The world has a queue. -/
  | opened
  /-- The area of the world is known. -/
  | located (a : Area)
  /-- The merges near the chunk are known, too. -/
  | informed (a : Area) (m : Merges)
  /-- The foreign generator has been asked. -/
  | supplied (a : Area) (m : Merges) (terrain : Option Chunk)
  | ended (result : Except Failure ChunkOutcome)

/-- The state of a generator in a world that it was asked for. -/
def GeneratorMode.state : GeneratorMode σ → GeneratorState
  | .replacing => .replacing
  | .augmenting _ => .augmenting

/-- The next section of a request. -/
def Progress.advance (g : Generator σ) (world : String) (coord : ChunkCoord) :
    Progress → Edit (Site κ σ) Progress
  | loaded => do
    Site.onQueue world (pure ())
    return .opened
  | opened => do
    match (← get).areas[world]? with
    | none =>
      Site.addLine (.warning ("No plot area for world " ++ world ++ ", chunk " ++ coord.text
        ++ " stays empty"))
      Site.onQueue world (Hosted.withChunk coord (Generator.resetTo (.empty coord)))
      return .ended (.ok .void)
    | some a => return .located a
  | located a => do
    let m ← Generator.prefetch (← get) a coord
    return .informed a m
  | informed a m =>
    match g.mode with
    | .replacing => do
      let outcome ← Site.onQueue world
        (Hosted.withChunk coord (Generator.buildAlone g.hooks a m world coord))
      return .ended (.ok outcome)
    | .augmenting foreign => do
      let terrain ← Generator.askForeign foreign world coord
      return .supplied a m terrain
  | supplied a m terrain => do
    let outcome ← Site.onQueue world
      (Hosted.withChunk coord (Generator.buildOver g.hooks a m world coord terrain))
    return .ended (.ok outcome)
  | ended result => return .ended result

/-- The progress that a section leads to, which has ended if it failed. -/
def Progress.ofResult : Except Failure Progress → Progress
  | .ok progress => progress
  | .error e => .ended (.error e)

/-! ### Generators at work -/

/-- A request for a chunk: whom it goes to, what for, and how far it has come. -/
structure Request (ι : Type) where
  generator : ι
  world : String
  coord : ChunkCoord
  progress : Progress

/-- Generators that serve one site, the requests to them, and what they were asked for, in order. -/
structure Service (ι κ σ : Type) where
  generators : ι → Generator σ
  site : Site κ σ
  requests : Nat → Option (Request ι) := fun _ => none
  /-- The generator and the world of each request, in the order in which they began. -/
  history : List (ι × String) := []

namespace Service

/-- Generators that nobody has asked yet, at a site where none is registered. -/
def new (generators : ι → Generator σ) (site : Site κ σ) : Service ι κ σ where
  generators i := { generators i with loaded := [] }
  site := { site with registered := ∅ }

variable [DecidableEq ι]

/-- A request begins: its world is loaded. -/
def begin (s : Service ι κ σ) (n : Nat) (i : ι) (world : String) (coord : ChunkCoord) :
    Service ι κ σ :=
  let t := ((Generator.load world).outcome (s.generators i, s.site)).2
  { generators := Function.update s.generators i t.1
    site := t.2
    requests := Function.update s.requests n (some ⟨i, world, coord, .loaded⟩)
    history := s.history ++ [(i, world)] }

/-- A request goes on by one section. -/
def advance (s : Service ι κ σ) (n : Nat) (r : Request ι) : Service ι κ σ :=
  let t := (r.progress.advance (s.generators r.generator) r.world r.coord).outcome s.site
  { s with
    site := t.2
    requests := Function.update s.requests n (some { r with progress := .ofResult t.1 }) }

/-- A step of a service: somebody asks for a chunk, a request goes on, or something happens at the
site that registers no generator. -/
inductive Step : Service ι κ σ → Service ι κ σ → Prop
  | begin (s : Service ι κ σ) {n : Nat} (h : s.requests n = none) (i : ι) (world : String)
      (coord : ChunkCoord) : Step s (s.begin n i world coord)
  | advance {s : Service ι κ σ} {n : Nat} {r : Request ι} (h : s.requests n = some r) :
      Step s (s.advance n r)
  | aside {s : Service ι κ σ} {site : Site κ σ} (h : site.registered = s.site.registered) :
      Step s { s with site }

/-- Any number of steps. -/
abbrev Steps (s s' : Service ι κ σ) : Prop := Relation.ReflTransGen Step s s'

end Service

/-! ### What requests do to the register -/

/-- Work on a queue does not concern the register. -/
theorem Site.keeps_registered_onQueue (world : String) (edit : Edit (Hosted κ σ) α) :
    (onQueue world edit).Keeps fun s => s.registered := by
  intro s
  unfold Edit.outcome onQueue
  cases edit ⟨s.queue world, s.log, s.host⟩ with
  | ok a h => rfl
  | error e h => rfl

theorem Site.keeps_registered_addLine (line : LogLine) :
    (addLine line : Edit (Site κ σ) Unit).Keeps fun s => s.registered := fun _ => rfl

theorem Generator.keeps_registered_askForeign (foreign : Foreign σ) (world : String)
    (coord : ChunkCoord) :
    (askForeign foreign world coord : Edit (Site κ σ) (Option Chunk)).Keeps
      fun s => s.registered := by
  intro s
  obtain ⟨log, hasked⟩ := askForeign_eq foreign world coord s
  rw [Edit.outcome, hasked]

/-- After its world is loaded, a request does not concern the register. -/
theorem Progress.keeps_registered_advance (g : Generator σ) (world : String) (coord : ChunkCoord)
    (progress : Progress) :
    (progress.advance g world coord : Edit (Site κ σ) Progress).Keeps fun s => s.registered := by
  cases progress with
  | loaded => exact (Site.keeps_registered_onQueue _ _).bind fun _ => .of_pure _
  | opened =>
      refine Edit.Keeps.get_bind fun s => ?_
      cases s.areas[world]? with
      | none =>
          exact (Site.keeps_registered_addLine _).bind fun _ =>
            (Site.keeps_registered_onQueue _ _).bind fun _ => .of_pure _
      | some a => exact .of_pure _
  | located a => exact Edit.Keeps.get_bind fun s => .liftM_bind _ fun m => .of_pure _
  | informed a m =>
      unfold advance
      cases g.mode with
      | replacing => exact (Site.keeps_registered_onQueue _ _).bind fun _ => .of_pure _
      | augmenting foreign =>
          exact (Generator.keeps_registered_askForeign foreign world coord).bind fun _ => .of_pure _
  | supplied a m terrain => exact (Site.keeps_registered_onQueue _ _).bind fun _ => .of_pure _
  | ended result => exact .of_pure _

/-- Registering fills a gap in the register, and changes no entry. -/
theorem Site.register_registers (world generator : String) (s : Site κ σ) :
    Edit.Ends (register world generator) s fun _ s' => ∀ other, s'.registered[other]? =
      s.registered[other]?.or (if world = other then some generator else none) := by
  unfold register
  refine Edit.ends_get_bind ?_
  by_cases hknown : s.registered.contains world
  · have hentry : s.registered[world]?.isSome := by
      rwa [← Std.TreeMap.contains_eq_isSome_getElem?]
    rw [if_pos hknown]
    refine Edit.ends_pure fun other => ?_
    split
    case isTrue hsame => rw [← hsame, Option.or_of_isSome hentry]
    case isFalse => rw [Option.or_none]
  · have hgap : s.registered[world]? = none := by
      rw [Std.TreeMap.contains_eq_isSome_getElem?] at hknown
      exact Option.not_isSome_iff_eq_none.mp hknown
    rw [if_neg hknown]
    refine ⟨(), _, rfl, fun other => ?_⟩
    show (s.registered.insert world generator)[other]? = _
    rw [Std.TreeMap.getElem?_insert]
    simp only [Std.compare_eq_iff_eq]
    split
    case isTrue hsame => rw [← hsame, hgap, Option.none_or]
    case isFalse => rw [Option.or_none]

/-- Loading a world for the first time puts it on the generator's record, and the generator into a
gap of the register. -/
theorem Generator.load_registers (world : String) (g : Generator σ) (s : Site κ σ) :
    Edit.Ends (load world) (g, s) fun _ t =>
      t.1.mode = g.mode ∧ t.1.name = g.name ∧
        (∀ other, other ∈ t.1.loaded ↔ other ∈ g.loaded ∨ other = world) ∧
        ∀ other, t.2.registered[other]? =
          if world ∈ g.loaded then s.registered[other]?
          else s.registered[other]?.or (if world = other then some g.name else none) := by
  by_cases hloaded : world ∈ g.loaded
  · simp only [if_pos hloaded]
    refine ⟨(), (g, s), if_pos hloaded, rfl, rfl, fun other => ⟨.inl, ?_⟩, fun other => rfl⟩
    rintro (h | rfl)
    · exact h
    · exact hloaded
  · simp only [if_neg hloaded]
    obtain ⟨u, s', hok, hregistered⟩ := Site.register_registers world g.name s
    refine ⟨(), ({ g with loaded := world :: g.loaded }, s'), ?_, rfl, rfl, fun other => ?_,
      hregistered⟩
    · show (if world ∈ g.loaded then _ else _) = _
      rw [if_neg hloaded, hok]
    · rw [List.mem_cons, or_comm]

theorem Generator.state_eq (g : Generator σ) (world : String) :
    g.state world = if world ∈ g.loaded then g.mode.state else .uninitialized := by
  unfold state GeneratorMode.state
  cases g.mode with
  | replacing => rfl
  | augmenting foreign => rfl

/-! ### The two records -/

namespace Service

variable {generators : ι → Generator σ} {s s' : Service ι κ σ}

/-- The records of a service agree with what was asked for, and its generators are what they were.
-/
structure Consistent (generators : ι → Generator σ) (s : Service ι κ σ) : Prop where
  mode : ∀ i, (s.generators i).mode = (generators i).mode
  name : ∀ i, (s.generators i).name = (generators i).name
  loaded : ∀ i world, world ∈ (s.generators i).loaded ↔ (i, world) ∈ s.history
  registered : ∀ world, s.site.registered[world]? =
    (s.history.find? fun asked => asked.2 = world).map fun asked => (generators asked.1).name

theorem begin_of_load [DecidableEq ι] {i : ι} {world : String} {u : Unit}
    {t : Generator σ × Site κ σ} (h : Generator.load world (s.generators i, s.site) = .ok u t)
    (n : Nat) (coord : ChunkCoord) :
    s.begin n i world coord =
      { generators := Function.update s.generators i t.1
        site := t.2
        requests := Function.update s.requests n (some ⟨i, world, coord, .loaded⟩)
        history := s.history ++ [(i, world)] } := by
  rw [Service.begin, Edit.outcome, h]

theorem consistent_new (generators : ι → Generator σ) (site : Site κ σ) :
    (new generators site).Consistent generators where
  mode _ := rfl
  name _ := rfl
  loaded _ _ := by simp [new]
  registered _ := Std.TreeMap.getElem?_emptyc

namespace Consistent

/-- A world is in the register as soon as anybody has asked for it. -/
theorem mem_registered_iff (hs : s.Consistent generators) (world : String) :
    world ∈ s.site.registered ↔ world ∈ s.history.map Prod.snd := by
  rw [Std.TreeMap.mem_iff_isSome_getElem?, hs.registered, Option.isSome_map, List.find?_isSome,
    List.mem_map]
  simp only [decide_eq_true_eq]

/-- The register lists each world once. -/
theorem keys_registered (hs : s.Consistent generators) :
    s.site.registered.keys.Perm (s.history.map Prod.snd).dedup := by
  refine (List.perm_ext_iff_of_nodup Std.TreeMap.nodup_keys (List.nodup_dedup _)).mpr
    fun world => ?_
  rw [List.mem_dedup, ← hs.mem_registered_iff, Std.TreeMap.mem_keys]

/-- An entry of the register stays as long as what was asked for is remembered. -/
theorem registered_of_isPrefix (hs : s.Consistent generators) (hs' : s'.Consistent generators)
    (hhistory : s.history <+: s'.history) {world name : String}
    (hname : s.site.registered[world]? = some name) : s'.site.registered[world]? = some name := by
  obtain ⟨later, hlater⟩ := hhistory
  rw [hs.registered] at hname
  rw [hs'.registered, ← hlater, List.find?_append, Option.map_or, hname, Option.some_or]

variable [DecidableEq ι]

theorem state_eq (hs : s.Consistent generators) (i : ι) (world : String) :
    (s.generators i).state world =
      if (i, world) ∈ s.history then (generators i).mode.state else .uninitialized := by
  simp only [Generator.state_eq, hs.loaded, hs.mode]

/-- The first step of a request keeps the records in agreement. -/
theorem begin (hs : s.Consistent generators) (n : Nat) (i : ι) (world : String)
    (coord : ChunkCoord) : (s.begin n i world coord).Consistent generators := by
  obtain ⟨u, t, hload, hmode, hname, hloaded, hregistered⟩ :=
    Generator.load_registers world (s.generators i) s.site
  rw [begin_of_load hload]
  -- Only the generator that is asked has changed, and of it only the record.
  have hsame {α : Type} (f : Generator σ → α) (hf : f t.1 = f (s.generators i)) (j : ι) :
      f (Function.update s.generators i t.1 j) = f (s.generators j) := by
    rw [Function.apply_update (fun _ => f), hf,
      Function.update_eq_self i fun j => f (s.generators j)]
  refine ⟨fun j => ?_, fun j => ?_, fun j other => ?_, fun other => ?_⟩ <;> dsimp only
  · rw [hsame _ hmode, hs.mode]
  · rw [hsame _ hname, hs.name]
  · rw [List.mem_append, List.mem_singleton, Prod.mk.injEq]
    by_cases hj : j = i
    · subst hj
      rw [Function.update_self, hloaded, hs.loaded, and_iff_right rfl]
    · rw [Function.update_of_ne hj, hs.loaded, or_iff_left fun h => hj h.1]
  · rw [hregistered, hs.registered, List.find?_append, Option.map_or, hs.name]
    by_cases hasked : (i, world) ∈ s.history
    · -- The world has an entry already, whoever asked for it first.
      rw [if_pos ((hs.loaded i world).mpr hasked)]
      by_cases hsame : world = other
      · have hfound : (s.history.find? fun asked => asked.2 = other).isSome :=
          List.find?_isSome.mpr ⟨(i, world), hasked, decide_eq_true hsame⟩
        rw [Option.or_of_isSome (by rwa [Option.isSome_map])]
      · rw [List.find?_singleton, if_neg (by simpa using hsame), Option.map_none, Option.or_none]
    · rw [if_neg fun h => hasked ((hs.loaded i world).mp h), List.find?_singleton]
      by_cases hsame : world = other
      · rw [if_pos hsame, if_pos (decide_eq_true hsame), Option.map_some]
      · rw [if_neg hsame, if_neg (by simpa using hsame), Option.map_none]

end Consistent

variable [DecidableEq ι]

/-- Every step keeps the records in agreement. -/
theorem Step.consistent (hstep : Step s s') (hs : s.Consistent generators) :
    s'.Consistent generators := by
  cases hstep with
  | begin h i world coord => exact hs.begin _ i world coord
  | @advance n r h =>
      have hsame := Progress.keeps_registered_advance (s.generators r.generator) r.world r.coord
        r.progress s.site
      exact ⟨hs.mode, hs.name, hs.loaded, fun world =>
        (congrArg (·[world]?) hsame).trans (hs.registered world)⟩
  | @aside site h =>
      exact ⟨hs.mode, hs.name, hs.loaded, fun world =>
        (congrArg (·[world]?) h).trans (hs.registered world)⟩

/-- What was asked for is never forgotten. -/
theorem Step.history_isPrefix (hstep : Step s s') : s.history <+: s'.history := by
  cases hstep with
  | begin h i world coord => exact List.prefix_append _ _
  | advance h => exact List.prefix_rfl
  | aside h => exact List.prefix_rfl

/-- The records agree after any number of steps. -/
theorem Steps.consistent (hsteps : Steps s s') (hs : s.Consistent generators) :
    s'.Consistent generators := by
  induction hsteps with
  | refl => exact hs
  | tail _ hstep ih => exact hstep.consistent ih

theorem Steps.history_isPrefix (hsteps : Steps s s') : s.history <+: s'.history := by
  induction hsteps with
  | refl => exact List.prefix_rfl
  | tail _ hstep ih => exact ih.trans hstep.history_isPrefix

end Service

/-! ### Requests that nobody interrupts -/

/-- From here a request goes on to its end, if nobody interrupts it. -/
inductive Progress.Finishes (g : Generator σ) (world : String) (coord : ChunkCoord) :
    Progress → Site κ σ → Except Failure ChunkOutcome → Site κ σ → Prop
  | ended (result : Except Failure ChunkOutcome) (s : Site κ σ) :
      Finishes g world coord (.ended result) s result s
  | advance {progress : Progress} {s s' : Site κ σ} {result : Except Failure ChunkOutcome}
      (h : Finishes g world coord (.ofResult ((progress.advance g world coord).outcome s).1)
        ((progress.advance g world coord).outcome s).2 result s') :
      Finishes g world coord progress s result s'

namespace Progress

variable {g : Generator σ} {world : String} {coord : ChunkCoord}

/-- A request goes on as an edit does, if that begins with the next section and the request goes on
as the rest of it. -/
theorem finishes_bind {progress : Progress} {s : Site κ σ} {edit : Edit (Site κ σ) α}
    (next : α → Progress) {rest : α → Edit (Site κ σ) ChunkOutcome}
    (hsection : progress.advance g world coord s = (edit >>= fun a => pure (next a)) s)
    (hrest : ∀ a s', Finishes g world coord (next a) s' ((rest a).outcome s').1
      ((rest a).outcome s').2) :
    Finishes g world coord progress s ((edit >>= rest).outcome s).1
      ((edit >>= rest).outcome s).2 := by
  refine .advance ?_
  cases hedit : edit s with
  | ok a s' =>
      have hadvance : progress.advance g world coord s = .ok (next a) s' :=
        hsection.trans (Edit.bind_of_ok hedit)
      rw [Edit.outcome_bind_of_ok hedit, Edit.outcome, hadvance]
      exact hrest a s'
  | error e s' =>
      have hadvance : progress.advance g world coord s = .error e s' :=
        hsection.trans (Edit.bind_of_error hedit)
      rw [Edit.outcome_bind_of_error hedit, Edit.outcome, hadvance]
      exact .ended _ _

/-- A request goes on as an edit does, if that is its last section. -/
theorem finishes_last {progress : Progress} {s : Site κ σ} {edit : Edit (Site κ σ) ChunkOutcome}
    (hsection : progress.advance g world coord s =
      (edit >>= fun outcome => pure (.ended (.ok outcome))) s) :
    Finishes g world coord progress s (edit.outcome s).1 (edit.outcome s).2 := by
  have hpure : Finishes g world coord progress s ((edit >>= pure).outcome s).1
      ((edit >>= pure).outcome s).2 :=
    finishes_bind _ hsection fun outcome s' => .ended (.ok outcome) s'
  rwa [bind_pure] at hpure

/-- Once its world is loaded, a request goes on as the building of the chunk does. -/
theorem finishes_build (g : Generator σ) (world : String) (coord : ChunkCoord) (s : Site κ σ) :
    Finishes g world coord .loaded s ((g.build world coord).outcome s).1
      ((g.build world coord).outcome s).2 := by
  unfold Generator.build
  refine finishes_bind (fun _ => .opened) rfl fun _ s₁ => ?_
  rw [Edit.outcome_get_bind]
  cases harea : s₁.areas[world]? with
  | none =>
      refine finishes_last ?_
      simp only [advance, Edit.get_bind, harea, bind_assoc, pure_bind]
  | some a =>
      have hlocated : advance g world coord .opened s₁ = .ok (.located a) s₁ := by
        simp only [advance, Edit.get_bind, harea]
        rfl
      refine .advance ?_
      rw [Edit.outcome, hlocated]
      dsimp only
      rw [Edit.outcome_get_bind]
      refine finishes_bind (.informed a) rfl fun m s₂ => ?_
      cases hmode : g.mode with
      | replacing =>
          refine finishes_last ?_
          unfold advance
          rw [hmode]
      | augmenting foreign =>
          refine finishes_bind (.supplied a m) ?_ fun terrain s₃ => finishes_last rfl
          unfold advance
          rw [hmode]

end Progress

namespace Service

/-- The request of a number goes on by one section. -/
inductive Advances (n : Nat) : Service ι κ σ → Service ι κ σ → Prop
  | advance {s : Service ι κ σ} {r : Request ι} (h : s.requests n = some r) :
      Advances n s (s.advance n r)

/-- A request that nobody interrupts comes to its end section by section. -/
theorem advances_of_finishes {g : Generator σ} {world : String} {coord : ChunkCoord}
    {progress : Progress} {site site' : Site κ σ} {result : Except Failure ChunkOutcome}
    (h : progress.Finishes g world coord site result site') {s : Service ι κ σ} {n : Nat} {i : ι}
    (hg : s.generators i = g) (hsite : s.site = site)
    (hrequest : s.requests n = some ⟨i, world, coord, progress⟩) :
    ∃ s', Relation.ReflTransGen (Advances n) s s' ∧ s'.generators = s.generators ∧
      s'.site = site' ∧ s'.requests n = some ⟨i, world, coord, .ended result⟩ := by
  induction h generalizing s with
  | ended result site => exact ⟨s, .refl, rfl, hsite, hrequest⟩
  | @advance progress site site' result h ih =>
      subst hg hsite
      obtain ⟨s', hadvances, hgenerators, hsite', hrequest'⟩ :=
        ih (s := s.advance n ⟨i, world, coord, progress⟩) rfl rfl (Function.update_self ..)
      exact ⟨s', .head (.advance hrequest) hadvances, hgenerators, hsite', hrequest'⟩

variable [DecidableEq ι]

/-- A request that has just begun and that nobody interrupts leaves the generator and the site that
it leaves by itself, and ends with the same result. -/
theorem advances_request (s : Service ι κ σ) (n : Nat) (i : ι) (world : String)
    (coord : ChunkCoord) :
    ∃ s', Relation.ReflTransGen (Advances n) (s.begin n i world coord) s' ∧
      s'.generators = Function.update s.generators i
        ((Generator.request world coord).outcome (s.generators i, s.site)).2.1 ∧
      s'.site = ((Generator.request world coord).outcome (s.generators i, s.site)).2.2 ∧
      s'.requests n = some ⟨i, world, coord,
        .ended ((Generator.request world coord).outcome (s.generators i, s.site)).1⟩ := by
  obtain ⟨u, t, hload, -⟩ := Generator.load_registers world (s.generators i) s.site
  have hrequest : (Generator.request world coord).outcome (s.generators i, s.site) =
      (((t.1.build world coord).outcome t.2).1, t.1, ((t.1.build world coord).outcome t.2).2) := by
    unfold Edit.outcome Generator.request
    simp only [bind, EStateM.bind, hload]
    cases t.1.build world coord t.2 with
    | ok outcome site => rfl
    | error e site => rfl
  have hbegin := begin_of_load hload n coord
  have hfirst : (s.begin n i world coord).generators i = t.1 := by
    rw [hbegin]
    exact Function.update_self ..
  obtain ⟨s', hadvances, hgenerators, hsite, hended⟩ :=
    advances_of_finishes (Progress.finishes_build t.1 world coord t.2) hfirst (by rw [hbegin])
      (Function.update_self ..)
  rw [hrequest]
  refine ⟨s', hadvances, ?_, hsite, hended⟩
  rw [hgenerators, hbegin]

theorem Advances.step {n : Nat} {s s' : Service ι κ σ} (h : Advances n s s') : Step s s' := by
  cases h with
  | advance h => exact .advance h

/-- A request that nobody interrupts is a run of steps of the service. -/
theorem steps_request (s : Service ι κ σ) {n : Nat} (hfree : s.requests n = none) (i : ι)
    (world : String) (coord : ChunkCoord) :
    ∃ s', Steps s s' ∧
      s'.generators = Function.update s.generators i
        ((Generator.request world coord).outcome (s.generators i, s.site)).2.1 ∧
      s'.site = ((Generator.request world coord).outcome (s.generators i, s.site)).2.2 ∧
      s'.requests n = some ⟨i, world, coord,
        .ended ((Generator.request world coord).outcome (s.generators i, s.site)).1⟩ := by
  obtain ⟨s', hadvances, hdone⟩ := s.advances_request n i world coord
  exact ⟨s', .head (.begin s hfree i world coord) (hadvances.lift id fun _ _ h => h.step), hdone⟩

/-! ### One-way loading -/

/-- **Worlds are loaded once and for ever.** Let any number of generators serve a site, and let
requests to them begin and go on in any order, whatever becomes of them. At every moment a generator
is uninitialized in the worlds that it was not asked for, and in the state of its mode in all
others. The register has for each world the generator that was asked first, and lists exactly the
worlds that anybody was asked for. What is so at one moment stays so: no state but the uninitialized
one ever changes, and no entry of the register.
-/
theorem loaded_once (generators : ι → Generator σ) (site : Site κ σ) {s s' : Service ι κ σ}
    (hs : Steps (new generators site) s) (hs' : Steps s s') :
    (∀ i world, (s.generators i).state world =
      if (i, world) ∈ s.history then (generators i).mode.state else .uninitialized) ∧
    (∀ world, s.site.registered[world]? =
      (s.history.find? fun asked => asked.2 = world).map fun asked => (generators asked.1).name) ∧
    s.site.registered.keys.Perm (s.history.map Prod.snd).dedup ∧
    s.history <+: s'.history ∧
    (∀ i world, (s.generators i).state world ≠ .uninitialized →
      (s'.generators i).state world = (s.generators i).state world) ∧
    ∀ world name : String, s.site.registered[world]? = some name →
      s'.site.registered[world]? = some name := by
  have hconsistent := hs.consistent (consistent_new generators site)
  have hconsistent' := hs'.consistent hconsistent
  have hhistory := hs'.history_isPrefix
  refine ⟨hconsistent.state_eq, hconsistent.registered, hconsistent.keys_registered, hhistory,
    fun i world hstate => ?_, fun _ _ => hconsistent.registered_of_isPrefix hconsistent' hhistory⟩
  rw [hconsistent.state_eq] at hstate ⊢
  have hasked : (i, world) ∈ s.history := by
    by_contra hnever
    exact hstate (if_neg hnever)
  rw [hconsistent'.state_eq, if_pos hasked, if_pos (hhistory.subset hasked)]

/-- One generator that builds areas, and one that lays them over terrain which never comes. -/
def pair : Bool → Generator Unit
  | true => .replacing
  | false => .augmenting { name := "broken", generate _ _ host := (.breakdown, host) }

/-- Both are asked for the same world, and while those requests are under way the first for another.
-/
def interleaved : Service Bool Unit Unit :=
  let first := (new pair { host := () }).begin 0 false "plotworld" ⟨0, 0⟩
  let second := first.begin 1 true "plotworld" ⟨0, 0⟩
  let third := second.advance 0 ⟨false, "plotworld", ⟨0, 0⟩, .loaded⟩
  third.begin 2 true "mine" ⟨5, -5⟩

/-- The world that both were asked for belongs to the one that was asked first, and the other world
is still unknown to it. -/
theorem loaded_once_interleaved :
    Steps (new pair { host := () }) interleaved ∧
      (interleaved.generators true).state "plotworld" = .replacing ∧
      (interleaved.generators false).state "mine" = .uninitialized ∧
      interleaved.site.registered["plotworld"]? = some "plotweave+broken" := by
  have hsteps : Steps (new pair { host := () }) interleaved :=
    (((Relation.ReflTransGen.refl.tail (.begin _ rfl false "plotworld" ⟨0, 0⟩)).tail
      (.begin _ rfl true "plotworld" ⟨0, 0⟩)).tail (.advance (n := 0) rfl)).tail
        (.begin _ rfl true "mine" ⟨5, -5⟩)
  obtain ⟨hstate, hregistered, -⟩ := loaded_once pair { host := () } hsteps .refl
  have hhistory : interleaved.history =
    [(false, "plotworld"), (true, "plotworld"), (true, "mine")] := rfl
  rw [hhistory] at hstate hregistered
  exact ⟨hsteps, (hstate true "plotworld").trans (by decide),
    (hstate false "mine").trans (by decide), (hregistered "plotworld").trans (by decide)⟩

end Service

end Cadastre
