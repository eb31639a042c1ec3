import Cadastre.Proofs.Generator.Answered
import Cadastre.Server.Run
/-!
# Cadastre.Proofs.Server.Product

**What a request makes.** In a world where nobody is merged, the generator of a configured world
makes of a chunk what the settings of the world and the place of the chunk say
(`WorldSpec.product`), whatever was made before and by whom. And it touches nothing but the chunk
(`Site.Made`).
-/

namespace Cadastre

variable {κ σ α : Type}

/-! ### Flat ground -/

theorem Chunk.coord_foldl {β : Type} {f : Chunk → β → Chunk} (hf : ∀ c x, (f c x).coord = c.coord)
    (xs : List β) (c : Chunk) : (xs.foldl f c).coord = c.coord := by
  induction xs generalizing c with
  | nil => rfl
  | cons x rest ih => exact (ih (f c x)).trans (hf c x)

/-- A chunk of flat ground is the one that was asked for. -/
theorem Foreign.coord_flatChunk (height : Nat) (biome : Int32) (coord : ChunkCoord) :
    (flatChunk height biome coord).coord = coord := by
  unfold flatChunk
  refine Chunk.coord_foldl (fun c col => ?_) Column.all (.empty coord)
  refine (Chunk.coord_foldl (fun c entry => ?_) _ c : _)
  dsimp only
  split
  · rfl
  · rfl

/-! ### Products -/

namespace WorldSpec

/-- What the generator of a world makes of a chunk of the world's area, where nobody is merged. -/
def product (spec : WorldSpec) (a : Area) (coord : ChunkCoord) : Chunk :=
  match spec.mode with
  | .replacing => ((a.buildInto coord .none .fresh).outcome (Chunk.empty coord)).2
  | .augmenting => ((a.buildInto coord .none .overwrite).outcome
      (Foreign.flatChunk (Foreign.flatHeight spec.foreignHeight) a.biome coord)).2

/-- What is made of a chunk is that chunk. -/
theorem coord_product {a : Area} {g : Grid} (hg : a.grid = .ok g) (spec : WorldSpec)
    (coord : ChunkCoord) : (spec.product a coord).coord = coord := by
  have hbuild (fill : Fill) (c : Chunk) :
      ((a.buildInto coord .none fill).outcome c).2.coord = c.coord := by
    obtain ⟨count, c', hok, -, hcovers⟩ := a.buildInto_ends hg .none fill c
    rw [Edit.outcome, hok]
    exact hcovers.coord
  unfold product
  cases spec.mode with
  | replacing => exact hbuild .fresh _
  | augmenting => exact (hbuild .overwrite _).trans (Foreign.coord_flatChunk _ _ _)

end WorldSpec

/-! ### Requests -/

/-- A site that differs from another by a chunk that was made in a world, and by what is logged and
registered. -/
structure Site.Made (s s' : Site κ σ) (world : String) (coord : ChunkCoord) (c : Chunk) : Prop where
  areas : s'.areas = s.areas
  merges : s'.merges = s.merges
  host : s'.host = s.host
  queue : s'.queue world = (s.queue world).write coord c
  other : ∀ other, other ≠ world → s'.queue other = s.queue other

/-- What was made since a site was made since any other that agrees with it. -/
theorem Site.Made.of_agrees {s s₁ s' : Site κ σ} {world : String} {coord : ChunkCoord} {c : Chunk}
    (h : s₁.Made s' world coord c) (hareas : s₁.areas = s.areas) (hmerges : s₁.merges = s.merges)
    (hhost : s₁.host = s.host) (hqueue : ∀ world, s₁.queue world = s.queue world) :
    s.Made s' world coord c where
  areas := h.areas.trans hareas
  merges := h.merges.trans hmerges
  host := h.host.trans hhost
  queue := h.queue.trans (by rw [hqueue world])
  other other hother := (h.other other hother).trans (hqueue other)

theorem Site.withChunk_made {coord : ChunkCoord} {edit : Edit (Chunk × σ) α} {x : α} {c : Chunk}
    (hedit : ∀ t, edit t = .ok x (c, t.2)) (world : String) (s : Site κ σ) :
    Edit.Ends (onQueue world (Hosted.withChunk coord edit)) s fun a s' =>
      a = x ∧ s.Made s' world coord c := by
  have hends (c' : Chunk) : edit.Ends (c', s.host) fun a t => a = x ∧ t = (c, s.host) :=
    ⟨x, _, hedit _, rfl, rfl⟩
  refine (onQueue_ends (Hosted.withChunk_ends hends)).mono fun a s' hdone => ?_
  obtain ⟨⟨c', hqueue, ha, hc⟩, hareas, hmerges, hother⟩ := hdone
  obtain ⟨rfl, hhost⟩ := Prod.mk.inj hc
  exact ⟨ha, hareas, hmerges, hhost, hqueue, hother⟩

namespace Generator

variable {a : Area} {world : String} {coord : ChunkCoord}

theorem merges_empty : ({} : MergeStore).merges = Merges.none := by
  funext id
  show (∅ : Std.TreeMap PlotId MergeState).getD id .none = .none
  exact Std.TreeMap.getD_emptyc

/-- Flat ground is delivered whenever it is asked for. -/
theorem askForeign_flat (height biome : Int32) (s : Site κ σ) :
    Edit.Ends (askForeign (.flat height biome) world coord) s fun terrain s' =>
      terrain = some (Foreign.flatChunk (Foreign.flatHeight height) biome coord) ∧
        s'.areas = s.areas ∧ s'.merges = s.merges ∧ s'.host = s.host ∧ s'.queues = s.queues := by
  obtain ⟨log, hasked⟩ := askForeign_eq (.flat height biome) world coord s
  exact ⟨_, _, hasked, if_pos (Foreign.coord_flatChunk _ _ _), rfl, rfl, rfl, rfl⟩

/-- **Building a chunk of a configured world** makes the product of its place. -/
theorem build_made {spec : WorldSpec} {g : Generator σ}
    (hmode : g.mode = (Run.generatorFor spec a : Generator σ).mode) (hhooks : g.hooks = {})
    {s : Site κ σ} (ha : s.areas[world]? = some a) (hmerges : s.merges = {}) {ids : List PlotId}
    (hnear : a.plotsNear coord = .ok ids) :
    Edit.Ends (g.build world coord) s fun outcome s' =>
      outcome = .generated (a.ownedColumns coord .none) ∧
        s.Made s' world coord (spec.product a coord) := by
  obtain ⟨grid, hgrid⟩ := Area.exists_grid_of_plotsNear hnear
  have hselect := Area.mergedGround_select hnear {}
  rw [merges_empty] at hselect
  refine build_ends_of_mode ha hnear fun s₁ hhost₁ hareas₁ hmerges₁ hqueue₁ => ?_
  rw [hhooks, hmode, hmerges]
  unfold Run.generatorFor WorldSpec.product
  cases spec.mode with
  | replacing =>
      have hbuild (t : Chunk × σ) := buildAlone_eq hgrid (({} : MergeStore).select ids).merges world
        coord t
      rw [Area.ownedColumns_congr hselect, Area.buildInto_congr hselect] at hbuild
      refine (Site.withChunk_made hbuild world s₁).mono fun outcome s' hdone => ?_
      exact ⟨hdone.1, hdone.2.of_agrees hareas₁ hmerges₁ hhost₁ hqueue₁⟩
  | augmenting =>
      refine (askForeign_flat _ _ s₁).bind fun terrain s₂ hterrain => ?_
      obtain ⟨rfl, hareas₂, hmerges₂, hhost₂, hqueues₂⟩ := hterrain
      have hbuild (t : Chunk × σ) := buildOver_eq hgrid (({} : MergeStore).select ids).merges world
        coord (some (Foreign.flatChunk (Foreign.flatHeight spec.foreignHeight) a.biome coord)) t
      rw [Area.ownedColumns_congr hselect, Area.buildInto_congr hselect] at hbuild
      simp only [Option.isSome_some, if_true, Option.getD_some] at hbuild
      refine (Site.withChunk_made hbuild world s₂).mono fun outcome s' hdone => ?_
      refine ⟨hdone.1, hdone.2.of_agrees (hareas₂.trans hareas₁) (hmerges₂.trans hmerges₁)
        (hhost₂.trans hhost₁) fun world => ?_⟩
      unfold Site.queue at hqueue₁ ⊢
      rw [hqueues₂, hqueue₁]

/-- **A request in a configured world** makes the product of its place, and the generator stays what
it is. -/
theorem request_made {spec : WorldSpec} {g : Generator σ}
    (hmode : g.mode = (Run.generatorFor spec a : Generator σ).mode) (hhooks : g.hooks = {})
    {s : Site κ σ} (ha : s.areas[world]? = some a) (hmerges : s.merges = {}) {ids : List PlotId}
    (hnear : a.plotsNear coord = .ok ids) :
    Edit.Ends (request world coord) (g, s) fun outcome t =>
      outcome = .generated (a.ownedColumns coord .none) ∧
        s.Made t.2 world coord (spec.product a coord) ∧ t.1.mode = g.mode ∧ t.1.hooks = {} := by
  obtain ⟨_, ⟨g', s'⟩, hload, hmode', hhooks', hareas, hmerges', hhost, hqueues⟩ :=
    load_ends world g s
  dsimp only at hmode' hhooks' hareas hmerges' hhost hqueues
  obtain ⟨outcome, s'', hbuild, houtcome, hmade⟩ := build_made (hmode'.trans hmode)
    (hhooks'.trans hhooks) (hareas ▸ ha) (hmerges'.trans hmerges) hnear
  refine ⟨outcome, (g', s''), request_of_build hload hbuild, houtcome, ?_, hmode',
    hhooks'.trans hhooks⟩
  refine hmade.of_agrees hareas hmerges' hhost fun world => ?_
  unfold Site.queue
  rw [hqueues]

/-- Where the plots near a chunk can be listed, it can be told of a column whether it is safe. -/
theorem exists_canSpawn (g : Generator σ) {s : Site κ σ} (ha : s.areas[world]? = some a)
    {x z : Int32} {ids : List PlotId} (hnear : a.plotsNear (.containing x z) = .ok ids) :
    ∃ safe, g.canSpawn s world x z = .ok safe := by
  obtain ⟨grid, hgrid⟩ := Area.exists_grid_of_plotsNear hnear
  obtain ⟨ground, hground⟩ :=
    grid.exists_mergedGround (a.isMerged (s.merges.select ids).merges) x z
  rw [← Area.mergedGround_eq_of_grid hgrid] at hground
  unfold canSpawn
  simp only [ha, prefetch_eq hnear, Area.isClaimed_eq_of_grid hgrid, bind, Except.bind, hground]
  cases g.mode with
  | replacing => exact ⟨_, rfl⟩
  | augmenting foreign =>
      dsimp only
      split
      · exact ⟨_, rfl⟩
      · exact ⟨_, rfl⟩

end Generator

end Cadastre
