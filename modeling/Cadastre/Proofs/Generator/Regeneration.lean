import Cadastre.Generator
import Cadastre.Proofs.Layout.Building
import Cadastre.Proofs.Merge.Nearby
import Cadastre.Proofs.Queue.Pending
/-!
# Cadastre.Proofs.Generator.Regeneration

**Asking again makes the chunk anew.** A replacing generator reads the merges of the plots near a
chunk only, and starts from an empty chunk. What it leaves pending is the area's content of the
chunk under all merges, whatever was pending before; and a column to spawn on is judged as under all
merges.
-/

namespace Cadastre

variable {κ σ α : Type}

namespace Site

/-- Work on a world's queue leaves the areas, the merges and the other queues alone. -/
theorem onQueue_ends {world : String} {edit : Edit (Hosted κ σ) α} {s : Site κ σ}
    {Q : α → Hosted κ σ → Prop} (h : edit.Ends ⟨s.queue world, s.log, s.host⟩ Q) :
    Edit.Ends (onQueue world edit) s fun a s' =>
      Q a ⟨s'.queue world, s'.log, s'.host⟩ ∧ s'.areas = s.areas ∧ s'.merges = s.merges ∧
        ∀ other, other ≠ world → s'.queue other = s.queue other := by
  obtain ⟨a, h', hok, hQ⟩ := h
  let s' : Site κ σ :=
    { s with queues := s.queues.insert world h'.queue, log := h'.log, host := h'.host }
  have hqueue : s'.queue world = h'.queue := Std.TreeMap.getD_insert_self
  refine ⟨a, s', ?_, ?_, rfl, rfl, fun other hother => ?_⟩
  · unfold onQueue
    simp only [hok]
    rfl
  · rw [hqueue]
    exact hQ
  · unfold queue
    rw [Std.TreeMap.getD_insert, if_neg (mt Std.LawfulEqCmp.compare_eq_iff_eq.mp hother.symm)]

/-- Registering a generator touches nothing but the register and the log. -/
theorem register_ends (world generator : String) (s : Site κ σ) :
    Edit.Ends (register world generator) s fun _ s' =>
      s'.areas = s.areas ∧ s'.merges = s.merges ∧ s'.host = s.host ∧ s'.queues = s.queues := by
  unfold register
  refine Edit.ends_get_bind ?_
  split
  · exact Edit.ends_pure ⟨rfl, rfl, rfl, rfl⟩
  · exact (Edit.ends_modify
      (Q := fun _ s' => s'.areas = s.areas ∧ s'.merges = s.merges ∧ s'.host = s.host ∧
        s'.queues = s.queues)
      ⟨rfl, rfl, rfl, rfl⟩).bind fun _ s' hs' => Edit.ends_modify hs'

end Site

namespace Generator

/-- The first request for a world changes only what is known of the generator. -/
theorem load_ends (world : String) (g : Generator σ) (s : Site κ σ) :
    Edit.Ends (load world) (g, s) fun _ t =>
      t.1.mode = g.mode ∧ t.1.hooks = g.hooks ∧ t.2.areas = s.areas ∧ t.2.merges = s.merges ∧
        t.2.host = s.host ∧ t.2.queues = s.queues := by
  by_cases hloaded : world ∈ g.loaded
  · exact ⟨(), (g, s), if_pos hloaded, rfl, rfl, rfl, rfl, rfl, rfl⟩
  · obtain ⟨u, s', hok, hsame⟩ := Site.register_ends world g.name s
    refine ⟨(), ({ g with loaded := world :: g.loaded }, s'), ?_, rfl, rfl, hsame⟩
    show (if world ∈ g.loaded then _ else _) = _
    rw [if_neg hloaded, hok]

variable {a : Area} {coord : ChunkCoord}

/-- Without hooks, building alone is building in an empty chunk, whatever was there before. -/
theorem buildAlone_eq {g : Grid} (hg : a.grid = .ok g) (m : Merges) (world : String)
    (coord : ChunkCoord) (t : Chunk × σ) :
    buildAlone {} a m world coord t = .ok (.generated (a.ownedColumns coord m))
      (((a.buildInto coord m .fresh).outcome (Chunk.empty coord)).2, t.2) := by
  obtain ⟨count, c, hbuild, rfl, -⟩ := a.buildInto_ends hg m .fresh (Chunk.empty coord)
  -- The hooks give no answer and change nothing, so only the building is left.
  show EStateM.bind (a.buildInto coord m .fresh : Edit Chunk Nat).onFirst _
    (Chunk.empty coord, t.2) = _
  rw [EStateM.bind, Edit.onFirst_of_ok hbuild, Edit.outcome, hbuild]
  rfl

/-- Without hooks, building alone leaves the content of the area. -/
theorem buildAlone_ends {g : Grid} (hg : a.grid = .ok g) (m : Merges) (world : String)
    (coord : ChunkCoord) (t : Chunk × σ) :
    Edit.Ends (buildAlone {} a m world coord) t fun outcome t' =>
      outcome = .generated (a.ownedColumns coord m) ∧ a.chunk coord m = .ok t'.1 := by
  refine ⟨_, _, buildAlone_eq hg m world coord t, rfl, ?_⟩
  obtain ⟨c, hchunk, hbuild⟩ := a.exists_chunk hg coord m
  rw [Edit.outcome, hbuild]
  exact hchunk

/-- The merges that are read for a chunk. -/
theorem prefetch_eq {s : Site κ σ} {ids : List PlotId} (hnear : a.plotsNear coord = .ok ids) :
    prefetch s a coord = .ok (s.merges.select ids).merges := by
  unfold prefetch
  rw [hnear]
  rfl

/-- Making the queue of a world leaves all alone that building depends on. -/
theorem makeQueue_ends (world : String) (s : Site κ σ) :
    Edit.Ends (Site.onQueue world (pure ())) s fun _ s' =>
      s'.host = s.host ∧ s'.areas = s.areas ∧ s'.merges = s.merges ∧
        ∀ world, s'.queue world = s.queue world := by
  refine ⟨_, _, rfl, rfl, rfl, rfl, fun other => ?_⟩
  unfold Site.queue
  rw [Std.TreeMap.getD_insert]
  split
  case isTrue heq => rw [Std.LawfulEqCmp.compare_eq_iff_eq.mp heq]
  case isFalse => rfl

/-- In a world with an area, what is built is decided by the generator's mode and by the merges near
the chunk. -/
theorem build_ends_of_mode {world : String} {s : Site κ σ} {ids : List PlotId}
    (ha : s.areas[world]? = some a) (hnear : a.plotsNear coord = .ok ids) {g : Generator σ}
    {Q : ChunkOutcome → Site κ σ → Prop}
    (hmode : ∀ s' : Site κ σ, s'.host = s.host → s'.areas = s.areas → s'.merges = s.merges →
      (∀ world, s'.queue world = s.queue world) → Edit.Ends (match g.mode with
      | .replacing => Site.onQueue world (Hosted.withChunk coord
          (buildAlone g.hooks a (s.merges.select ids).merges world coord))
      | .augmenting foreign => do
        let terrain ← askForeign foreign world coord
        Site.onQueue world (Hosted.withChunk coord
          (buildOver g.hooks a (s.merges.select ids).merges world coord terrain))) s' Q) :
    Edit.Ends (g.build world coord) s Q := by
  unfold build
  refine (makeQueue_ends world s).bind fun _ s' hs' => ?_
  obtain ⟨hhost, hareas, hmerges, hqueue⟩ := hs'
  refine Edit.ends_get_bind ?_
  rw [hareas, ha]
  refine Edit.ends_get_bind ?_
  rw [prefetch_eq hnear, Edit.liftM_ok_bind, hmerges]
  exact hmode s' hhost hareas hmerges hqueue

/-- The area's content of a chunk is pending, and the answer tells how many columns are the area's.
-/
def Built (a : Area) (world : String) (coord : ChunkCoord) (m : Merges)
    (outcome : Nat → ChunkOutcome) (result : ChunkOutcome) (s : Site κ σ) : Prop :=
  result = outcome (a.ownedColumns coord m) ∧
    ∃ c, a.chunk coord m = .ok c ∧ (s.queue world).pendingChunk? coord = some c

/-- Where an edit leaves the content of a chunk under the merges near it, the content under all
merges is pending. -/
theorem withChunk_near_ends {ids : List PlotId} (hnear : a.plotsNear coord = .ok ids)
    {merges : MergeStore} {outcome : Nat → ChunkOutcome} {edit : Edit (Chunk × σ) ChunkOutcome}
    (hedit : ∀ t, edit.Ends t fun result t' =>
      result = outcome (a.ownedColumns coord (merges.select ids).merges) ∧
        a.chunk coord (merges.select ids).merges = .ok t'.1) (world : String) (s : Site κ σ) :
    Edit.Ends (Site.onQueue world (Hosted.withChunk coord edit)) s
      (Built a world coord merges.merges outcome) := by
  rw [Area.ownedColumns_congr (Area.mergedGround_select hnear merges),
    Area.chunk_congr (Area.mergedGround_select hnear merges)] at hedit
  refine (Site.onQueue_ends (Hosted.withChunk_ends fun c => hedit (c, s.host))).mono ?_
  intro result s' hdone
  obtain ⟨⟨c, hqueue, hresult, hc⟩, -⟩ := hdone
  dsimp only at hqueue
  exact ⟨hresult, c, hc, hqueue ▸ Queue.pendingChunk?_write _ coord c⟩

/-- **Building with the merges near a chunk** leaves pending what building with all of them gives.
-/
theorem build_ends {world : String} {s : Site κ σ} {ids : List PlotId}
    (ha : s.areas[world]? = some a) (hnear : a.plotsNear coord = .ok ids) {g : Generator σ}
    (hmode : g.mode = .replacing) (hhooks : g.hooks = {}) :
    Edit.Ends (g.build world coord) s (Built a world coord s.merges.merges .generated) := by
  obtain ⟨g', hg⟩ := Area.exists_grid_of_plotsNear hnear
  refine build_ends_of_mode ha hnear fun s' _ _ _ _ => ?_
  rw [hmode, hhooks]
  exact withChunk_near_ends hnear (fun t => buildAlone_ends hg _ world coord t) world s'

/-- A request loads the world and builds the chunk. -/
theorem request_of_build {world : String} {g g' : Generator σ} {s s' s'' : Site κ σ}
    {outcome : ChunkOutcome} (hload : load world (g, s) = .ok () (g', s'))
    (hbuild : g'.build world coord s' = .ok outcome s'') :
    request world coord (g, s) = .ok outcome (g', s'') := by
  unfold request
  simp only [bind, EStateM.bind, hload, hbuild]

/-- **Regeneration.** Let a replacing generator without hooks serve a world with an area. For every
chunk whose near plots can be listed, the merges that it reads give every column of the chunk the
ground that all merges give it. A request answers with the number of columns that the area claims
and owns, and leaves pending exactly the area's content of the chunk under all merges, whatever was
pending before. And one can spawn on every column that is no wall under all merges, and on no other.
-/
theorem request_replacing (name : String) (loaded : List String) (s : Site κ σ) (world : String)
    (a : Area) (ha : s.areas[world]? = some a) :
    (∀ coord ids, a.plotsNear coord = .ok ids →
      (∃ m, prefetch s a coord = .ok m ∧
        ∀ col : Column, a.mergedGround m (col.worldX coord) (col.worldZ coord) =
          a.mergedGround s.merges.merges (col.worldX coord) (col.worldZ coord)) ∧
      ∃ c g' s', a.chunk coord s.merges.merges = .ok c ∧
        request world coord (⟨name, .replacing, {}, loaded⟩, s) =
          .ok (.generated (a.ownedColumns coord s.merges.merges)) (g', s') ∧
        (s'.queue world).pendingChunk? coord = some c) ∧
    ∀ x z ids, a.plotsNear (.containing x z) = .ok ids →
      ∃ ground, a.mergedGround s.merges.merges x z = .ok ground ∧
        canSpawn ⟨name, .replacing, {}, loaded⟩ s world x z = .ok (!ground.isWall) := by
  constructor
  · intro coord ids hnear
    refine ⟨⟨_, prefetch_eq hnear, Area.mergedGround_select hnear s.merges⟩, ?_⟩
    obtain ⟨_, ⟨g', s'⟩, hload, hmode, hhooks, hareas, hmerges, -⟩ :=
      load_ends world (⟨name, .replacing, {}, loaded⟩ : Generator σ) s
    dsimp only at hmode hhooks hareas hmerges
    obtain ⟨outcome, s'', hbuild, houtcome, c, hc, hpending⟩ :=
      build_ends (hareas ▸ ha) hnear hmode hhooks
    rw [hmerges] at houtcome hc
    exact ⟨c, g', s'', hc, by rw [request_of_build hload hbuild, houtcome], hpending⟩
  · intro x z ids hnear
    obtain ⟨g, hg⟩ := Area.exists_grid_of_plotsNear hnear
    -- The column is one of those of the chunk that was looked at.
    obtain ⟨col, hx, hz⟩ := Column.exists_containing x z
    have hselect := Area.mergedGround_select hnear s.merges col
    rw [hx, hz] at hselect
    obtain ⟨ground, hground⟩ := g.exists_mergedGround (a.isMerged s.merges.merges) x z
    rw [← Area.mergedGround_eq_of_grid hg] at hground
    refine ⟨ground, hground, ?_⟩
    unfold canSpawn
    simp only [ha, prefetch_eq hnear, bind, Except.bind, hselect, hground]
    rfl

/-- A site with the standard area, where two plots are merged and a chunk with a block is pending.
-/
def standardSite : Site Unit Unit where
  areas := ({} : Std.TreeMap String Area).insert "plotworld" .standard
  merges := (({} : MergeStore).merge? ⟨0, 0⟩ ⟨1, 0⟩).getD {}
  queues := ({} : Std.TreeMap String (Queue Unit)).insert "plotworld"
    (((Queue.new "plotworld").forChunk ⟨2, -1⟩).2.store ⟨⟨2, -1⟩, 0⟩
      ((Chunk.empty ⟨2, -1⟩).put (Column.atHeight ⟨3, 5⟩ (Chunk.height 12 8)) .stone))
  host := ()

theorem request_replacing_standard :
    standardSite.areas["plotworld"]? = some .standard ∧
      (∃ c g' s', Area.standard.chunk ⟨2, -1⟩ standardSite.merges.merges = .ok c ∧
        request "plotworld" ⟨2, -1⟩ (⟨"plotweave", .replacing, {}, []⟩, standardSite) =
          .ok (.generated (Area.standard.ownedColumns ⟨2, -1⟩ standardSite.merges.merges))
            (g', s') ∧
        (s'.queue "plotworld").pendingChunk? ⟨2, -1⟩ = some c) ∧
      ∃ ground, Area.standard.mergedGround standardSite.merges.merges 36 5 = .ok ground ∧
        canSpawn ⟨"plotweave", .replacing, {}, []⟩ standardSite "plotworld" 36 5 =
          .ok (!ground.isWall) := by
  have ha : standardSite.areas["plotworld"]? = some .standard := Std.TreeMap.getElem?_insert_self
  obtain ⟨hrequest, hspawn⟩ :=
    request_replacing "plotweave" [] standardSite "plotworld" .standard ha
  exact ⟨ha, (hrequest ⟨2, -1⟩ _ rfl).2, hspawn 36 5 _ rfl⟩

end Generator

end Cadastre
