import Cadastre.Proofs.Chunk.History
import Cadastre.Proofs.Generator.Answered
import Cadastre.Proofs.Generator.Loading
/-!
# Cadastre.Proofs.Generator.Replay

**Stored chunks are replayed once and whole.** Generators that build areas share a cache. Chunks are
stored in it and requests are answered in any order, sections of several requests in between each
other (`Depot.Step`). At every moment the cache holds for each place the chunk that was stored there
last, unless a request has asked for it since (`lastStored`). A request that finds a chunk leaves
pending what agrees with it everywhere, whatever was pending before, and takes it out of the cache;
one that finds none builds the area and leaves the cache alone (`Depot.replayed_once`).

A request asks the cache when it knows the merges near its chunk. Where the plots near the chunk
cannot be listed it fails before that, even if a chunk is stored (`Depot.replay_cut_off`).
-/

namespace Cadastre

variable {ι κ σ α : Type}

/-! ### Chunks of the same content -/

theorem Picture.blank_overlay (m : Picture) : blank.overlay m = m := by
  unfold overlay blank
  congr 1
  · funext x y z
    split
    case isTrue hair => exact hair.symm
    case isFalse => rfl
  · funext x z
    exact Option.or_none

namespace Chunk

/-- Two chunks answer every question about their content alike. -/
structure Agrees (c d : Chunk) : Prop where
  block : ∀ x y z, c.block? x y z = d.block? x y z
  biome : ∀ x z, c.biome? x z = d.biome? x z
  count : c.blockCount = d.blockCount
  highest : ∀ x z, c.highest? x z = d.highest? x z
  isEmpty : c.isEmpty = d.isEmpty

/-- Chunks that represent one picture agree. -/
theorem Represents.agrees {c d : Chunk} {m : Picture} (h : c.Represents m) (h' : d.Represents m) :
    c.Agrees d where
  block x y z := (h.block x y z).trans (h'.block x y z).symm
  biome x z := (h.biome x z).trans (h'.biome x z).symm
  count := h.count.trans h'.count.symm
  highest x z := Option.ext fun y => (h.highest x z y).trans (h'.highest x z y).symm
  isEmpty := Bool.eq_iff_iff.mpr (h.isEmpty.trans h'.isEmpty.symm)

/-- What is laid over an empty chunk comes out whole. -/
theorem Depicts.overlay_empty_agrees {c : Chunk} {m : Picture} (h : c.Depicts m)
    (coord : ChunkCoord) : ((empty coord).overlay c).Agrees c := by
  have hover := (depicts_empty coord).overlay h
  rw [Picture.blank_overlay] at hover
  exact hover.represents.agrees h.represents

end Chunk

/-! ### The cache -/

namespace ChunkCache

theorem getElem?_store (cache : ChunkCache) (world : String) (c : Chunk)
    (key : String × ChunkCoord) : (cache.store world c).chunks[key]? =
      if key = (world, c.coord) then some c else cache.chunks[key]? := by
  rw [store, Std.TreeMap.getElem?_insert]
  simp only [ChunkCoord.compareLex_eq_iff, eq_comm (b := key)]

theorem getElem?_erase (cache : ChunkCache) (key key' : String × ChunkCoord) :
    (cache.chunks.erase key)[key']? = if key' = key then none else cache.chunks[key']? := by
  rw [Std.TreeMap.getElem?_erase]
  simp only [ChunkCoord.compareLex_eq_iff, eq_comm (b := key')]

/-- The hook takes the stored chunk, if there is one, and lays it over the chunk. -/
theorem before_eq (world : String) (c : Chunk) (cache : ChunkCache) :
    hooks.before world (c, cache) = match cache.chunks[(world, c.coord)]? with
      | some stored => .ok true (c.overlay stored, ⟨cache.chunks.erase (world, c.coord)⟩)
      | none => .ok false (c, cache) := by
  have hhook : hooks.before world (c, cache) = .ok _ _ := Edit.modifyGet_eq _ _
  rw [hhook]
  dsimp only [id, replay?]
  cases cache.chunks[(world, c.coord)]? with
  | some stored => rfl
  | none => rfl

end ChunkCache

/-- What happens to a cache: a chunk is stored for a world, or a request asks for one. -/
inductive CacheUse
  | stored (world : String) (c : Chunk)
  | asked (world : String) (coord : ChunkCoord)

/-- The chunk that counts for a place, where the last use comes first: the one stored there last, if
nobody has asked for it since. -/
def lastStored (key : String × ChunkCoord) : List CacheUse → Option Chunk
  | [] => none
  | .stored world c :: uses => if key = (world, c.coord) then some c else lastStored key uses
  | .asked world coord :: uses => if key = (world, coord) then none else lastStored key uses

/-! ### One request -/

/-- What becomes of a request that asks a cache, where `stored` is the chunk that counts for it:
that chunk is pending and taken out of the cache, or the area's content of the chunk is pending and
the cache is as it was. -/
structure Answered (stored : Option Chunk) (a : Area) (m : Merges) (world : String)
    (coord : ChunkCoord) (cache : ChunkCache) (outcome : ChunkOutcome) (s : Site κ ChunkCache) :
    Prop where
  skipped_iff : outcome = .skipped ↔ stored.isSome
  replayed : ∀ c, stored = some c →
    (∃ c', (s.queue world).pendingChunk? coord = some c' ∧ c'.Agrees c) ∧
      ∀ key, s.host.chunks[key]? = if key = (world, coord) then none else cache.chunks[key]?
  built : stored = none →
    (∃ c, a.chunk coord m = .ok c ∧ (s.queue world).pendingChunk? coord = some c) ∧
      outcome = .generated (a.ownedColumns coord m) ∧ s.host = cache

/-- A request that asked the cache leaves nothing there for its place. -/
theorem Answered.getElem?_eq {stored : Option Chunk} {a : Area} {m : Merges} {world : String}
    {coord : ChunkCoord} {cache : ChunkCache} {outcome : ChunkOutcome} {s : Site κ ChunkCache}
    (h : Answered stored a m world coord cache outcome s)
    (hstored : cache.chunks[(world, coord)]? = stored) (key : String × ChunkCoord) :
    s.host.chunks[key]? = if key = (world, coord) then none else cache.chunks[key]? := by
  cases stored with
  | some c => exact (h.replayed c rfl).2 key
  | none =>
      obtain ⟨-, -, hcache⟩ := h.built rfl
      rw [hcache]
      split
      case isTrue hkey => rw [hkey, hstored]
      case isFalse => rfl

namespace Generator

variable {a : Area} {world : String} {coord : ChunkCoord} {g : Generator ChunkCache}

/-- A generator that builds areas only, hooked to the cache. -/
structure Cached (g : Generator ChunkCache) : Prop where
  mode : g.mode = .replacing
  hooks : g.hooks = ChunkCache.hooks

/-- With a cache for a hook, a chunk is either laid over the emptied one or built in it. -/
theorem buildAlone_cached_ends {grid : Grid} (hgrid : a.grid = .ok grid) (m : Merges)
    (world : String) (coord : ChunkCoord) (c : Chunk) (cache : ChunkCache) :
    Edit.Ends (buildAlone ChunkCache.hooks a m world coord) (c, cache) fun outcome t' =>
      match cache.chunks[(world, coord)]? with
      | some stored => outcome = .skipped ∧
          t' = ((Chunk.empty coord).overlay stored, ⟨cache.chunks.erase (world, coord)⟩)
      | none => (outcome = .generated (a.ownedColumns coord m) ∧ a.chunk coord m = .ok t'.1) ∧
          t'.2 = cache := by
  have hreset : resetTo (.empty coord) (c, cache) = .ok () (Chunk.empty coord, cache) := rfl
  have hcoord : (Chunk.empty coord).coord = coord := rfl
  have hbefore := ChunkCache.before_eq world (Chunk.empty coord) cache
  rw [hcoord] at hbefore
  unfold Edit.Ends buildAlone
  rw [Edit.bind_of_ok hreset]
  cases hstored : cache.chunks[(world, coord)]? with
  | some stored =>
      rw [hstored] at hbefore
      rw [Edit.bind_of_ok hbefore]
      exact ⟨_, _, rfl, rfl, rfl⟩
  | none =>
      rw [hstored] at hbefore
      rw [Edit.bind_of_ok hbefore]
      obtain ⟨built, hchunk, hbuild⟩ := a.exists_chunk hgrid coord m
      refine ⟨_, (built, cache), ?_, ⟨rfl, hchunk⟩, rfl⟩
      have hfirst := Edit.onFirst_of_ok hbuild cache
      rw [if_neg Bool.false_ne_true, Edit.bind_of_ok hfirst]
      rfl

/-- The section of a request that asks the cache. -/
theorem ask_ends {grid : Grid} (hgrid : a.grid = .ok grid) (m : Merges) (s : Site κ ChunkCache)
    (hdepicts : ∀ c, s.host.chunks[(world, coord)]? = some c → ∃ picture, c.Depicts picture) :
    Edit.Ends (Site.onQueue world
      (Hosted.withChunk coord (buildAlone ChunkCache.hooks a m world coord))) s
      (Answered s.host.chunks[(world, coord)]? a m world coord s.host) := by
  refine (Site.onQueue_ends (Hosted.withChunk_ends fun c =>
    buildAlone_cached_ends hgrid m world coord c s.host)).mono ?_
  rintro outcome s' ⟨⟨c, hqueue, hdone⟩, -⟩
  dsimp only at hqueue hdone
  have hpending : (s'.queue world).pendingChunk? coord = some c :=
    hqueue ▸ Queue.pendingChunk?_write _ coord c
  cases hstored : s.host.chunks[(world, coord)]? with
  | some stored =>
      rw [hstored] at hdone
      obtain ⟨rfl, hcontent⟩ := hdone
      obtain ⟨rfl, hcache⟩ := Prod.mk.inj hcontent
      obtain ⟨picture, hpicture⟩ := hdepicts stored hstored
      refine ⟨by simp, fun d hd => ?_, nofun⟩
      cases hd
      refine ⟨⟨_, hpending, hpicture.overlay_empty_agrees coord⟩, fun key => ?_⟩
      rw [hcache, ChunkCache.getElem?_erase]
  | none =>
      rw [hstored] at hdone
      obtain ⟨⟨rfl, hchunk⟩, hcache⟩ := hdone
      exact ⟨by simp, nofun, fun _ => ⟨⟨c, hchunk, hpending⟩, rfl, hcache⟩⟩

/-- A request that nobody interrupts asks the cache, wherever the plots near its chunk can be
listed. -/
theorem request_cached_ends (hg : g.Cached) {s : Site κ ChunkCache} {ids : List PlotId}
    (ha : s.areas[world]? = some a) (hnear : a.plotsNear coord = .ok ids)
    (hdepicts : ∀ c, s.host.chunks[(world, coord)]? = some c → ∃ picture, c.Depicts picture) :
    Edit.Ends (request world coord) (g, s) fun outcome t =>
      Answered s.host.chunks[(world, coord)]? a s.merges.merges world coord s.host outcome t.2 := by
  obtain ⟨_, ⟨g', s'⟩, hload, hmode, hhooks, hareas, hmerges, hhost, -⟩ := load_ends world g s
  dsimp only at hmode hhooks hareas hmerges hhost
  obtain ⟨grid, hgrid⟩ := Area.exists_grid_of_plotsNear hnear
  have hbuild : Edit.Ends (g'.build world coord) s' fun outcome s'' =>
      Answered s.host.chunks[(world, coord)]? a s.merges.merges world coord s.host outcome s'' := by
    refine build_ends_of_mode (hareas ▸ ha) hnear fun s'' hhost' _ _ _ => ?_
    have hsame : s''.host = s.host := hhost'.trans hhost
    rw [hmode, hg.mode, hhooks, hg.hooks, hmerges]
    refine (ask_ends hgrid _ s'' (hsame.symm ▸ hdepicts)).mono fun outcome t hanswered => ?_
    rw [hsame] at hanswered
    -- The merges near the chunk decide about it as all merges do.
    have hselect := Area.mergedGround_select hnear s.merges
    refine ⟨hanswered.skipped_iff, hanswered.replayed, fun hnone => ?_⟩
    rw [← Area.chunk_congr hselect, ← Area.ownedColumns_congr hselect]
    exact hanswered.built hnone
  obtain ⟨outcome, s'', hok, hanswered⟩ := hbuild
  exact ⟨outcome, (g', s''), request_of_build hload hok, hanswered⟩

end Generator

namespace Progress

variable {a : Area} {world : String} {coord : ChunkCoord} {g : Generator ChunkCache}

/-- What is known of a request that no foreign generator is asked for: with the merges near its
chunk it knows that the plots there can be listed. -/
def Sensible (coord : ChunkCoord) : Progress → Prop
  | informed a _ => ∃ ids, a.plotsNear coord = .ok ids
  | supplied _ _ _ => False
  | loaded | opened | located _ | ended _ => True

/-- What the next section of a request does to a cache. -/
def uses (world : String) (coord : ChunkCoord) : Progress → List CacheUse
  | informed _ _ => [.asked world coord]
  | loaded | opened | located _ | supplied _ _ _ | ended _ => []

theorem uses_eq_nil_or (world : String) (coord : ChunkCoord) (progress : Progress) :
    progress.uses world coord = [] ∨ ∃ a m, progress = .informed a m := by
  cases progress with
  | informed a m => exact .inr ⟨a, m, rfl⟩
  | loaded | opened | located a | supplied a m terrain | ended result => exact .inl rfl

/-- A section whose result decides how the request goes on. -/
theorem ofResult_bind {P : Progress → Prop} {edit : Edit (Site κ σ) α} {next : α → Progress}
    {s : Site κ σ} (hfailed : ∀ e, P (.ended (.error e)))
    (hnext : ∀ b s', edit s = .ok b s' → P (next b)) :
    P (ofResult ((edit >>= fun b => pure (next b)).outcome s).1) := by
  cases hedit : edit s with
  | ok b s' =>
      rw [Edit.outcome_bind_of_ok hedit]
      exact hnext b s' hedit
  | error e s' =>
      rw [Edit.outcome_bind_of_error hedit]
      exact hfailed e

/-- A request stays sensible. -/
theorem sensible_advance (hg : g.Cached) {progress : Progress} (h : progress.Sensible coord)
    (s : Site κ ChunkCache) :
    (ofResult ((progress.advance g world coord).outcome s).1).Sensible coord := by
  have hfailed (e : Failure) : Sensible coord (.ended (.error e)) := trivial
  cases progress with
  | loaded => exact ofResult_bind hfailed fun _ _ _ => trivial
  | opened =>
      unfold advance
      rw [Edit.outcome_get_bind]
      cases s.areas[world]? with
      | none =>
          rw [← bind_assoc]
          exact ofResult_bind hfailed fun _ _ _ => trivial
      | some a => exact trivial
  | located a =>
      unfold advance
      rw [Edit.outcome_get_bind]
      refine ofResult_bind hfailed fun m s' hfetch => ?_
      cases hnear : a.plotsNear coord with
      | ok ids => exact ⟨ids, hnear⟩
      | error e =>
          rw [Generator.prefetch, hnear] at hfetch
          cases hfetch
  | informed a m =>
      unfold advance
      rw [hg.mode]
      exact ofResult_bind hfailed fun _ _ _ => trivial
  | supplied a m terrain => exact h.elim
  | ended result => exact trivial

/-- Only the section that asks the cache changes it. -/
theorem keeps_host_advance {progress : Progress} (h : progress.Sensible coord)
    (huses : progress.uses world coord = []) :
    (progress.advance g world coord : Edit (Site κ ChunkCache) Progress).Keeps fun s => s.host := by
  cases progress with
  | loaded => exact (Site.keeps_onQueue (f := id) (.of_pure ())).bind fun _ => .of_pure _
  | opened =>
      refine Edit.Keeps.get_bind fun s => ?_
      cases s.areas[world]? with
      | none =>
          exact (Site.keeps_addLine (f := id) _).bind fun _ =>
            (Site.keeps_onQueue (f := id) (Hosted.keeps_withChunk (Generator.keeps_resetTo _))).bind
              fun _ => .of_pure _
      | some a => exact .of_pure _
  | located a => exact Edit.Keeps.get_bind fun s => .liftM_bind _ fun m => .of_pure _
  | informed a m => cases huses
  | supplied a m terrain => exact h.elim
  | ended result => exact .of_pure _

/-- The section that asks the cache. -/
theorem advance_informed_ends (hg : g.Cached) {a : Area} {m : Merges}
    (h : (informed a m).Sensible coord) {s : Site κ ChunkCache}
    (hdepicts : ∀ c, s.host.chunks[(world, coord)]? = some c → ∃ picture, c.Depicts picture) :
    Edit.Ends ((informed a m).advance g world coord) s fun progress s' => ∃ outcome,
      progress = .ended (.ok outcome) ∧
        Answered s.host.chunks[(world, coord)]? a m world coord s.host outcome s' := by
  obtain ⟨ids, hnear⟩ := h
  obtain ⟨grid, hgrid⟩ := Area.exists_grid_of_plotsNear hnear
  unfold advance
  rw [hg.mode, hg.hooks]
  exact (Generator.ask_ends hgrid m s hdepicts).bind fun outcome s' hdone =>
    Edit.ends_pure ⟨outcome, rfl, hdone⟩

end Progress

/-! ### Generators that share a cache -/

/-- Generators at work with a cache that they share, and what was done to it, the last first. -/
structure Depot (ι κ : Type) extends Service ι κ ChunkCache where
  uses : List CacheUse := []

namespace Depot

/-- Generators of these names at a site, and an empty cache. -/
def new (names : ι → String) (site : Site κ ChunkCache) : Depot ι κ where
  toService := .new (fun i => ⟨names i, .replacing, ChunkCache.hooks, []⟩) { site with host := {} }

/-- A request goes on by one section. -/
def advance (d : Depot ι κ) (n : Nat) (r : Request ι) : Depot ι κ where
  toService := d.toService.advance n r
  uses := r.progress.uses r.world r.coord ++ d.uses

/-- Somebody stores a chunk. -/
def store (d : Depot ι κ) (world : String) (c : Chunk) : Depot ι κ where
  toService := { d.toService with site := { d.site with host := d.site.host.store world c } }
  uses := .stored world c :: d.uses

/-- A step of a depot: a request begins or goes on, a chunk is stored that was made in any way, or
something happens at the site that does not concern the cache. -/
inductive Step [DecidableEq ι] : Depot ι κ → Depot ι κ → Prop
  | begin (d : Depot ι κ) {n : Nat} (h : d.requests n = none) (i : ι) (world : String)
      (coord : ChunkCoord) : Step d { d with toService := d.toService.begin n i world coord }
  | advance {d : Depot ι κ} {n : Nat} {r : Request ι} (h : d.requests n = some r) :
      Step d (d.advance n r)
  | store (d : Depot ι κ) (world : String) (made : History) : Step d (d.store world made.chunk)
  | aside {d : Depot ι κ} {site : Site κ ChunkCache} (h : site.host = d.site.host) :
      Step d { d with site }

/-- Any number of steps. -/
abbrev Steps [DecidableEq ι] (d d' : Depot ι κ) : Prop := Relation.ReflTransGen Step d d'

/-! ### What the cache holds -/

/-- What is known of a depot at every moment: the cache holds what counts for each place. -/
structure Consistent (d : Depot ι κ) : Prop where
  cached : ∀ i, (d.generators i).Cached
  chunks : ∀ key, d.site.host.chunks[key]? = lastStored key d.uses
  depicts : ∀ key c, lastStored key d.uses = some c → ∃ picture, c.Depicts picture
  sensible : ∀ n r, d.requests n = some r → r.progress.Sensible r.coord

variable {d d' : Depot ι κ}

theorem consistent_new (names : ι → String) (site : Site κ ChunkCache) :
    (new names site).Consistent where
  cached _ := ⟨rfl, rfl⟩
  chunks _ := Std.TreeMap.getElem?_emptyc
  depicts _ _ := nofun
  sensible _ _ := nofun

namespace Consistent

/-- A request asks the cache, and is answered with what counts for its place. -/
theorem advance_informed (hd : d.Consistent) {n : Nat} {r : Request ι} (hr : d.requests n = some r)
    {a : Area} {m : Merges} (hinformed : r.progress = .informed a m) :
    ∃ outcome, (d.advance n r).requests n = some { r with progress := .ended (.ok outcome) } ∧
      Answered (lastStored (r.world, r.coord) d.uses) a m r.world r.coord d.site.host outcome
        (d.advance n r).site := by
  have hsensible := hd.sensible n r hr
  rw [hinformed] at hsensible
  obtain ⟨_, site', hok, outcome, rfl, hanswered⟩ :=
    Progress.advance_informed_ends (hd.cached r.generator) hsensible (s := d.site) fun c hc =>
      hd.depicts (r.world, r.coord) c ((hd.chunks _).symm.trans hc)
  have hadvance : (r.progress.advance (d.generators r.generator) r.world r.coord).outcome d.site =
      (.ok (.ended (.ok outcome)), site') := by
    rw [hinformed, Edit.outcome, hok]
  rw [hd.chunks] at hanswered
  simp only [Depot.advance, Service.advance, hadvance]
  exact ⟨outcome, Function.update_self .., hanswered⟩

/-- A section of a request keeps the cache in agreement with its uses. -/
theorem advance (hd : d.Consistent) {n : Nat} {r : Request ι} (hr : d.requests n = some r) :
    (d.advance n r).Consistent where
  cached := hd.cached
  chunks key := by
    rcases r.progress.uses_eq_nil_or r.world r.coord with hnone | ⟨a, m, hinformed⟩
    · have hkept : (d.advance n r).site.host = d.site.host :=
        Progress.keeps_host_advance (g := d.generators r.generator) (hd.sensible n r hr) hnone
          d.site
      rw [hkept, hd.chunks, Depot.advance, hnone, List.nil_append]
    · obtain ⟨outcome, -, hanswered⟩ := hd.advance_informed hr hinformed
      rw [hanswered.getElem?_eq (hd.chunks _), hd.chunks]
      simp only [Depot.advance, hinformed, Progress.uses, List.singleton_append, lastStored]
  depicts key c hc := by
    rcases r.progress.uses_eq_nil_or r.world r.coord with hnone | ⟨a, m, hinformed⟩
    · simp only [Depot.advance, hnone, List.nil_append] at hc
      exact hd.depicts key c hc
    · simp only [Depot.advance, hinformed, Progress.uses, List.singleton_append, lastStored] at hc
      split at hc
      case isTrue => cases hc
      case isFalse => exact hd.depicts key c hc
  sensible n' r' hr' := by
    by_cases hn : n' = n
    · subst hn
      simp only [Depot.advance, Service.advance, Function.update_self] at hr'
      cases hr'
      exact Progress.sensible_advance (hd.cached _) (hd.sensible _ r hr) d.site
    · simp only [Depot.advance, Service.advance, Function.update_of_ne hn] at hr'
      exact hd.sensible n' r' hr'

theorem store (hd : d.Consistent) (world : String) (made : History) :
    (d.store world made.chunk).Consistent where
  cached := hd.cached
  chunks key := by
    show (d.site.host.store world made.chunk).chunks[key]? = _
    rw [ChunkCache.getElem?_store, hd.chunks, Depot.store, lastStored]
  depicts key c hc := by
    rw [Depot.store, lastStored] at hc
    split at hc
    case isTrue =>
        cases hc
        exact ⟨_, made.depicts⟩
    case isFalse => exact hd.depicts key c hc
  sensible := hd.sensible

theorem begin [DecidableEq ι] (hd : d.Consistent) (n : Nat) (i : ι) (world : String)
    (coord : ChunkCoord) :
    { d with toService := d.toService.begin n i world coord }.Consistent := by
  obtain ⟨u, t, hload, hmode, hhooks, -, -, hhost, -⟩ :=
    Generator.load_ends world (d.generators i) d.site
  rw [Service.begin_of_load hload]
  refine ⟨fun j => ?_, fun key => ?_, hd.depicts, fun n' r hr => ?_⟩
  · by_cases hj : j = i
    · subst hj
      simp only [Function.update_self]
      exact ⟨hmode.trans (hd.cached j).mode, hhooks.trans (hd.cached j).hooks⟩
    · simp only [Function.update_of_ne hj]
      exact hd.cached j
  · simp only [hhost]
    exact hd.chunks key
  · by_cases hn : n' = n
    · subst hn
      simp only [Function.update_self] at hr
      cases hr
      trivial
    · simp only [Function.update_of_ne hn] at hr
      exact hd.sensible n' r hr

end Consistent

variable [DecidableEq ι]

/-- Every step keeps the cache in agreement with its uses. -/
theorem Step.consistent (hstep : Step d d') (hd : d.Consistent) : d'.Consistent := by
  cases hstep with
  | begin h i world coord => exact hd.begin _ i world coord
  | advance h => exact hd.advance h
  | store world made => exact hd.store world made
  | @aside site h => exact ⟨hd.cached, fun key => h ▸ hd.chunks key, hd.depicts, hd.sensible⟩

theorem Steps.consistent (hsteps : Steps d d') (hd : d.Consistent) : d'.Consistent := by
  induction hsteps with
  | refl => exact hd
  | tail _ hstep ih => exact hstep.consistent ih

/-- A request that nobody interrupts is a run of steps: it leaves the site and the generators that
it leaves by itself. -/
theorem steps_request (d : Depot ι κ) {n : Nat} (hfree : d.requests n = none) (i : ι)
    (world : String) (coord : ChunkCoord) :
    ∃ d', Steps d d' ∧
      d'.generators = Function.update d.generators i
        ((Generator.request world coord).outcome (d.generators i, d.site)).2.1 ∧
      d'.site = ((Generator.request world coord).outcome (d.generators i, d.site)).2.2 := by
  obtain ⟨s', hadvances, hgenerators, hsite, -⟩ := d.toService.advances_request n i world coord
  have hlift : ∃ d', Steps { d with toService := d.toService.begin n i world coord } d' ∧
      d'.toService = s' := by
    clear hgenerators hsite
    induction hadvances with
    | refl => exact ⟨_, .refl, rfl⟩
    | tail _ hadvance ih =>
        obtain ⟨d', hsteps, rfl⟩ := ih
        cases hadvance with
        | advance h => exact ⟨_, hsteps.tail (.advance h), rfl⟩
  obtain ⟨d', hsteps, rfl⟩ := hlift
  exact ⟨d', .head (.begin d hfree i world coord) hsteps, hgenerators, hsite⟩

/-! ### Replays -/

/-- **Stored chunks are replayed once and whole.** Let any number of replacing generators share a
cache that is empty at first. Let chunks that came about in any way be stored in it, and requests
begin and go on, in any order, while anything else happens at the site, in the queues too. At every
moment the cache holds for each place the chunk that was stored there last, if no request has asked
for it since. A request that asks is skipped exactly if there is such a chunk. Then what is pending
agrees with it on every block, every biome, the number of blocks, the highest blocks and on being
empty, whatever was pending before; the chunk is out of the cache, and no other entry has changed.
Otherwise the area's content of the chunk is pending under the merges that the request has read, and
the cache is as it was.

The same holds of a request that nobody interrupts, in a world with an area and under all merges, if
the plots near the chunk can be listed. If not, it fails with that failure, and the cache and what
is pending are as they were. -/
theorem replayed_once (names : ι → String) (site : Site κ ChunkCache) {d : Depot ι κ}
    (hd : Steps (new names site) d) :
    (∀ key, d.site.host.chunks[key]? = lastStored key d.uses) ∧
    (∀ n r a m, d.requests n = some r → r.progress = .informed a m →
      ∃ outcome, (d.advance n r).requests n = some { r with progress := .ended (.ok outcome) } ∧
        Answered (lastStored (r.world, r.coord) d.uses) a m r.world r.coord d.site.host outcome
          (d.advance n r).site) ∧
    ∀ (i : ι) (world : String) (coord : ChunkCoord) (a : Area), d.site.areas[world]? = some a →
      (∀ ids, a.plotsNear coord = .ok ids → ∃ outcome t,
        Generator.request world coord (d.generators i, d.site) = .ok outcome t ∧
          Answered (lastStored (world, coord) d.uses) a d.site.merges.merges world coord
            d.site.host outcome t.2) ∧
      ∀ e, a.plotsNear coord = .error e → ∃ t,
        Generator.request world coord (d.generators i, d.site) = .error e t ∧
          t.2.host = d.site.host ∧ ∀ other, t.2.queue other = d.site.queue other := by
  have hconsistent := hd.consistent (consistent_new names site)
  refine ⟨hconsistent.chunks, fun n r a m hr => hconsistent.advance_informed hr,
    fun i world coord a ha => ⟨fun ids hnear => ?_, fun e => Generator.request_fails _ ha⟩⟩
  have hends := Generator.request_cached_ends (hconsistent.cached i) ha hnear fun c hc =>
    hconsistent.depicts _ c ((hconsistent.chunks _).symm.trans hc)
  rw [hconsistent.chunks] at hends
  exact hends

/-- A site whose world has an area, and a cache. -/
def siteOf (a : Area) : Site Unit ChunkCache where
  areas := ({} : Std.TreeMap String Area).insert "plotworld" a
  host := {}

/-- One generator at a site with an area, and a chunk of one block in the cache. -/
def stocked (a : Area) (coord : ChunkCoord) : Depot Unit Unit :=
  (new (fun _ => "plotweave") (siteOf a)).store "plotworld"
    (History.setBlock (.new coord) 0 1 0 .stone).chunk

theorem steps_stocked (a : Area) (coord : ChunkCoord) :
    Steps (new (fun _ => "plotweave") (siteOf a)) (stocked a coord) :=
  .single (.store _ "plotworld" _)

/-- The stored chunk comes out, and nothing is left of it in the cache. -/
theorem replayed_once_stocked :
    Steps (new (fun _ => "plotweave") (siteOf .standard)) (stocked .standard ⟨2, -1⟩) ∧
      ∃ t, Generator.request "plotworld" ⟨2, -1⟩
          ((stocked .standard ⟨2, -1⟩).generators (), (stocked .standard ⟨2, -1⟩).site) =
            .ok .skipped t ∧
        t.2.host.chunks[("plotworld", (⟨2, -1⟩ : ChunkCoord))]? = none ∧
        ∃ c, (t.2.queue "plotworld").pendingChunk? ⟨2, -1⟩ = some c ∧
          c.block? 0 1 0 = some .stone ∧ c.block? 15 255 15 = some .air := by
  have hsteps := steps_stocked .standard ⟨2, -1⟩
  have ha : (stocked .standard ⟨2, -1⟩).site.areas["plotworld"]? = some .standard :=
    Std.TreeMap.getElem?_insert_self
  obtain ⟨-, -, hrequest⟩ := replayed_once (fun _ => "plotweave") (siteOf .standard) hsteps
  obtain ⟨outcome, t, hok, hanswered⟩ := (hrequest () "plotworld" ⟨2, -1⟩ .standard ha).1 _ rfl
  have hstored : lastStored ("plotworld", ⟨2, -1⟩) (stocked .standard ⟨2, -1⟩).uses =
      some (History.setBlock (.new ⟨2, -1⟩) 0 1 0 .stone).chunk := rfl
  rw [hstored] at hanswered
  obtain rfl : outcome = .skipped := hanswered.skipped_iff.mpr rfl
  obtain ⟨⟨c, hpending, hagrees⟩, hcache⟩ := hanswered.replayed _ rfl
  refine ⟨hsteps, t, hok, (hcache _).trans (if_pos rfl), c, hpending, ?_, ?_⟩
  · rw [hagrees.block, (History.chunk_represents _).block]
    decide
  · rw [hagrees.block, (History.chunk_represents _).block]
    decide

/-- **A stored chunk that is not replayed**: the last one of a tiled world. The request for it fails
before the cache is asked. -/
theorem replay_cut_off :
    Steps (new (fun _ => "plotweave") (siteOf Generator.tiled))
        (stocked Generator.tiled ⟨134217727, 0⟩) ∧
      (lastStored ("plotworld", ⟨134217727, 0⟩)
        (stocked Generator.tiled ⟨134217727, 0⟩).uses).isSome ∧
      ∃ t, Generator.request "plotworld" ⟨134217727, 0⟩
          ((stocked Generator.tiled ⟨134217727, 0⟩).generators (),
            (stocked Generator.tiled ⟨134217727, 0⟩).site) =
          .error (.abort (.overflow .add)) t := by
  have ha : (stocked Generator.tiled ⟨134217727, 0⟩).site.areas["plotworld"]? =
    some Generator.tiled := Std.TreeMap.getElem?_insert_self
  exact ⟨steps_stocked _ _, rfl, Generator.request_of_plotsNear_error _ ha rfl⟩

end Depot

end Cadastre
