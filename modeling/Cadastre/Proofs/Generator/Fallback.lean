import Cadastre.Proofs.Generator.Regeneration
import Cadastre.Proofs.Generator.Spared
import Cadastre.Proofs.Layout.Fresh
/-!
# Cadastre.Proofs.Generator.Fallback

**Without terrain, augmenting is replacing.** Where the foreign generator does not deliver the chunk
it was asked for, the area is built over an empty chunk. That leaves what a replacing generator
leaves, down to the palettes and storages of the sections; only the answer tells the two apart.
-/

namespace Cadastre

variable {κ σ : Type}

/-- A foreign generator does not deliver a chunk: it refuses, breaks down, or hands over a chunk
with another coordinate. -/
def Foreign.FailsOn (foreign : Foreign σ) (world : String) (coord : ChunkCoord) (host : σ) : Prop :=
  ∀ c, (foreign.generate world coord host).1 = .chunk c → c.coord ≠ coord

namespace Generator

variable {a : Area} {coord : ChunkCoord} {world : String}

/-- What is not delivered, or is not what was asked for, counts as no terrain. -/
theorem askForeign_ends {foreign : Foreign σ} {s : Site κ σ}
    (hfails : foreign.FailsOn world coord s.host) :
    Edit.Ends (askForeign foreign world coord) s fun terrain _ => terrain = none := by
  obtain ⟨log, hasked⟩ := askForeign_eq foreign world coord s
  refine ⟨_, _, hasked, ?_⟩
  unfold Foreign.delivered?
  cases hdelivery : (foreign.generate world coord s.host).1 with
  | chunk c => exact if_neg (hfails c hdelivery)
  | refusal text => rfl
  | breakdown => rfl

/-- Without hooks, building over is building in the terrain, or in an empty chunk where there is none.
-/
theorem buildOver_eq {g : Grid} (hg : a.grid = .ok g) (m : Merges) (world : String)
    (coord : ChunkCoord) (terrain : Option Chunk) (t : Chunk × σ) :
    buildOver {} a m world coord terrain t =
      .ok (if terrain.isSome then .generated (a.ownedColumns coord m)
          else .fallback (a.ownedColumns coord m))
        (((a.buildInto coord m .overwrite).outcome (terrain.getD (.empty coord))).2, t.2) := by
  obtain ⟨count, c, hbuild, rfl, -⟩ :=
    a.buildInto_ends hg m .overwrite (terrain.getD (.empty coord))
  show EStateM.bind (a.buildInto coord m .overwrite : Edit Chunk Nat).onFirst _
    (terrain.getD (.empty coord), t.2) = _
  rw [EStateM.bind, Edit.onFirst_of_ok hbuild, Edit.outcome, hbuild]
  rfl

/-- Without terrain and hooks, building over leaves the content of the area, as building alone does.
-/
theorem buildOver_none_ends {g : Grid} (hg : a.grid = .ok g) (m : Merges) (world : String)
    (coord : ChunkCoord) (t : Chunk × σ) :
    Edit.Ends (buildOver {} a m world coord none) t fun outcome t' =>
      outcome = .fallback (a.ownedColumns coord m) ∧ a.chunk coord m = .ok t'.1 := by
  refine ⟨_, _, buildOver_eq hg m world coord none t, rfl, ?_⟩
  obtain ⟨c, hchunk, hbuild⟩ := a.exists_chunk hg coord m
  rw [← a.buildInto_overwrite_of_air coord m (Chunk.valid_empty coord) (Chunk.block_empty coord)]
    at hbuild
  rw [Option.getD_none, Edit.outcome, hbuild]
  exact hchunk

/-- **Building without terrain** leaves pending what building alone leaves. -/
theorem build_fallback_ends {s : Site κ σ} {ids : List PlotId} (ha : s.areas[world]? = some a)
    (hnear : a.plotsNear coord = .ok ids) {g : Generator σ} {foreign : Foreign σ}
    (hmode : g.mode = .augmenting foreign) (hhooks : g.hooks = {})
    (hfails : foreign.FailsOn world coord s.host) :
    Edit.Ends (g.build world coord) s (Built a world coord s.merges.merges .fallback) := by
  obtain ⟨g', hg⟩ := Area.exists_grid_of_plotsNear hnear
  refine build_ends_of_mode ha hnear fun s' hhost _ _ _ => ?_
  rw [hmode, hhooks]
  rw [← hhost] at hfails
  refine (askForeign_ends hfails).bind fun terrain s'' hterrain => ?_
  rw [hterrain]
  exact withChunk_near_ends hnear (fun t => buildOver_none_ends hg _ world coord t) world s''

/-- Loading the world leaves all alone that building depends on, so a request ends as the building
does. -/
theorem request_ends {s : Site κ σ} {g : Generator σ} {m : Merges} {outcome : Nat → ChunkOutcome}
    (hbuild : ∀ (g' : Generator σ) (s' : Site κ σ), g'.mode = g.mode → g'.hooks = g.hooks →
      s'.areas = s.areas → s'.merges = s.merges → s'.host = s.host →
      Edit.Ends (g'.build world coord) s' (Built a world coord m outcome)) :
    Edit.Ends (request world coord) (g, s) fun result t =>
      Built a world coord m outcome result t.2 := by
  obtain ⟨_, ⟨g', s'⟩, hload, hmode, hhooks, hareas, hmerges, hhost, -⟩ := load_ends world g s
  obtain ⟨result, s'', hok, hbuilt⟩ := hbuild g' s' hmode hhooks hareas hmerges hhost
  exact ⟨result, (g', s''), request_of_build hload hok, hbuilt⟩

/-- **Falling back is replacing.** Let an augmenting generator and a replacing one, both without
hooks, serve a world with the same area and the same merges, whatever is pending with either. For
every chunk whose near plots can be listed and that the foreign generator fails to deliver, both
count the same columns, the one as a fallback and the other as its own, and both leave the same
chunk pending: the area's content of the chunk, down to palettes and storages. For on an empty chunk
clearing the columns first makes no difference. -/
theorem request_fallback (name : String) (foreign : Foreign σ) (loaded : List String)
    (s : Site κ σ) (name' : String) (loaded' : List String) (t : Site κ σ) (world : String)
    (a : Area) (ha : s.areas[world]? = some a) (hareas : t.areas = s.areas)
    (hmerges : t.merges = s.merges) :
    (∀ coord ids, a.plotsNear coord = .ok ids → foreign.FailsOn world coord s.host →
      ∃ columns c g s' g' t',
        request world coord (⟨name, .augmenting foreign, {}, loaded⟩, s) =
          .ok (.fallback columns) (g, s') ∧
        request world coord (⟨name', .replacing, {}, loaded'⟩, t) =
          .ok (.generated columns) (g', t') ∧
        a.chunk coord s.merges.merges = .ok c ∧
        (s'.queue world).pendingChunk? coord = some c ∧
        (t'.queue world).pendingChunk? coord = some c) ∧
    ∀ coord m, a.buildInto coord m .overwrite (Chunk.empty coord) =
      a.buildInto coord m .fresh (Chunk.empty coord) := by
  constructor
  · intro coord ids hnear hfails
    have hfallback : Edit.Ends (request world coord)
        ((⟨name, .augmenting foreign, {}, loaded⟩ : Generator σ), s) fun result u =>
          Built a world coord s.merges.merges .fallback result u.2 := by
      refine request_ends fun g s' hmode hhooks hareas' hmerges' hhost => ?_
      rw [← hareas'] at ha
      rw [← hhost] at hfails
      rw [← hmerges']
      exact build_fallback_ends ha hnear hmode hhooks hfails
    have hreplacing : Edit.Ends (request world coord)
        ((⟨name', .replacing, {}, loaded'⟩ : Generator σ), t) fun result u =>
          Built a world coord s.merges.merges .generated result u.2 := by
      refine request_ends fun g t' hmode hhooks hareas' hmerges' hhost => ?_
      rw [← hareas, ← hareas'] at ha
      rw [← hmerges, ← hmerges']
      exact build_ends ha hnear hmode hhooks
    obtain ⟨_, ⟨g, s'⟩, hs', rfl, c, hc, hpending⟩ := hfallback
    obtain ⟨_, ⟨g', t'⟩, ht', rfl, c', hc', hpending'⟩ := hreplacing
    -- The content of the chunk is the same, as it is that of the area.
    rw [hc] at hc'
    cases hc'
    exact ⟨_, c, g, s', g', t', hs', ht', hc, hpending, hpending'⟩
  · intro coord m
    exact a.buildInto_overwrite_of_air coord m (Chunk.valid_empty coord) (Chunk.block_empty coord)

/-- A foreign generator that delivers the chunk beside the one it was asked for. -/
def stray : Foreign Unit where
  name := "stray"
  generate _ coord host := (.chunk (.empty ⟨coord.x + 1, coord.z⟩), host)

/-- The same site with nothing pending. -/
def clearedSite : Site Unit Unit := { standardSite with queues := ∅ }

theorem request_fallback_stray :
    standardSite.areas["plotworld"]? = some .standard ∧
      stray.FailsOn "plotworld" ⟨2, -1⟩ standardSite.host ∧
      ∃ columns c g s' g' t',
        request "plotworld" ⟨2, -1⟩ (⟨"plotweave+stray", .augmenting stray, {}, []⟩, standardSite) =
          .ok (.fallback columns) (g, s') ∧
        request "plotworld" ⟨2, -1⟩ (⟨"plotweave", .replacing, {}, []⟩, clearedSite) =
          .ok (.generated columns) (g', t') ∧
        Area.standard.chunk ⟨2, -1⟩ standardSite.merges.merges = .ok c ∧
        (s'.queue "plotworld").pendingChunk? ⟨2, -1⟩ = some c ∧
        (t'.queue "plotworld").pendingChunk? ⟨2, -1⟩ = some c := by
  have ha : standardSite.areas["plotworld"]? = some .standard := Std.TreeMap.getElem?_insert_self
  have hfails : stray.FailsOn "plotworld" ⟨2, -1⟩ standardSite.host := by
    intro c hc
    cases hc
    decide
  obtain ⟨hrequest, -⟩ := request_fallback "plotweave+stray" stray [] standardSite "plotweave" []
    clearedSite "plotworld" .standard ha rfl rfl
  exact ⟨ha, hfails, hrequest ⟨2, -1⟩ _ rfl hfails⟩

end Generator

end Cadastre
