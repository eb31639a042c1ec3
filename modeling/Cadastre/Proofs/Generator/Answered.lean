import Cadastre.Proofs.Generator.Fallback
/-!
# Cadastre.Proofs.Generator.Answered

**When a request is answered.** Of all that a request does, only the search for the plots near a
chunk can be cut off: it counts one cell further than the chunk reaches, and behind the last cell of
an axis there is none (`Grid.RunsOut`). That cell is out of sight wherever a period has three
columns or more. Everything else comes to its end, whatever the foreign generator does; so
`Generator.request_answered` says exactly which requests are answered.
-/

namespace Cadastre

variable {κ σ : Type}

/-! ### The last cell of an axis -/

/-- Whether the cell of a band is the last one that has a number. -/
def Band.IsLast (b : Band) : Prop := b.cell.toInt = 2147483647

instance (b : Band) : Decidable b.IsLast := inferInstanceAs (Decidable (_ = _))

namespace Grid

/-- Whether the cells that count as near a chunk run out of numbers: on the first axis, or on the
second where there is a cell on the first. -/
def RunsOut (g : Grid) (coord : ChunkCoord) : Prop :=
  (g.bandX (coord.minX + 15)).IsLast ∨
    (g.bandX coord.minX).cell.toInt ≤ (g.bandX (coord.minX + 15)).cell.toInt + 1 ∧
      (g.bandZ (coord.minZ + 15)).IsLast

instance (g : Grid) (coord : ChunkCoord) : Decidable (g.RunsOut coord) :=
  inferInstanceAs (Decidable (_ ∨ _))

variable {g : Grid}

/-- With a period of three columns at least, no coordinate lies in the last cell. -/
theorem not_isLast_band (h : 3 ≤ g.period) (offset w : Int32) : ¬(g.band offset w).IsLast := by
  obtain ⟨-, hw⟩ := Int32.fits_toInt w
  obtain ⟨hoffset, -⟩ := Int32.fits_toInt offset
  have hr := g.roadWidth_lt_period
  have hcell : g.cellAt offset w < 2147483647 := Int.ediv_lt_of_lt_mul g.period_pos (by omega)
  unfold Band.IsLast
  rw [cell_band (by omega)]
  split <;> omega

theorem not_runsOut (h : 3 ≤ g.period) (coord : ChunkCoord) : ¬g.RunsOut coord := by
  rintro (hx | ⟨-, hz⟩)
  · exact not_isLast_band h _ _ hx
  · exact not_isLast_band h _ _ hz

end Grid

/-! ### The plots near a chunk -/

theorem isEmpty_cellsBetween (first last : Int32) :
    (cellsBetween first last).isEmpty = true ↔ last.toInt < first.toInt := by
  rw [List.isEmpty_iff, cellsBetween, List.map_eq_nil_iff, List.range_eq_nil]
  omega

/-- The plots near a chunk are listed unless the cells run out of numbers. -/
theorem Area.plotsNear_cases {a : Area} {g : Grid} (hg : a.grid = .ok g) (coord : ChunkCoord) :
    if g.RunsOut coord then a.plotsNear coord = .error (.abort (.overflow .add))
    else ∃ ids, a.plotsNear coord = .ok ids := by
  unfold plotsNear Grid.RunsOut Band.IsLast
  simp only [hg, Checked.add_one, bind, Except.bind, pure, Except.pure]
  by_cases hx : (g.bandX (coord.minX + 15)).cell.toInt = 2147483647
  · simp [hx]
  have hlast : (Int32.ofInt ((g.bandX (coord.minX + 15)).cell.toInt + 1)).toInt =
      (g.bandX (coord.minX + 15)).cell.toInt + 1 := by
    have hfits := Int32.fits_toInt (g.bandX (coord.minX + 15)).cell
    unfold Fits at hfits
    exact Int32.toInt_ofInt_of_fits ⟨by omega, by omega⟩
  simp only [hx, if_false, false_or, isEmpty_cellsBetween, hlast, ← Int.not_le]
  by_cases hsome : (g.bandX coord.minX).cell.toInt ≤ (g.bandX (coord.minX + 15)).cell.toInt + 1
  · by_cases hz : (g.bandZ (coord.minZ + 15)).cell.toInt = 2147483647
    · simp [hsome, hz]
    · simp [hsome, hz]
  · simp [hsome]

/-- Whether an answer is that the layout was built, over what was delivered or without it. -/
def ChunkOutcome.IsBuilt (outcome : ChunkOutcome) : Prop :=
  ∃ columns, outcome = .generated columns ∨ outcome = .fallback columns

namespace Generator

variable {a : Area} {world : String} {coord : ChunkCoord}

/-! ### What always comes to its end -/

/-- Without hooks, building over any terrain comes to its end. -/
theorem buildOver_ends {g : Grid} (hg : a.grid = .ok g) (m : Merges) (world : String)
    (coord : ChunkCoord) (terrain : Option Chunk) (t : Chunk × σ) :
    Edit.Ends (buildOver {} a m world coord terrain) t fun outcome _ => outcome.IsBuilt := by
  refine ⟨_, _, buildOver_eq hg m world coord terrain t, a.ownedColumns coord m, ?_⟩
  split
  · exact .inl rfl
  · exact .inr rfl

/-- Without hooks, a chunk is built wherever the plots near it can be listed. -/
theorem build_total {g : Generator σ} (hhooks : g.hooks = {}) {s : Site κ σ} {ids : List PlotId}
    (ha : s.areas[world]? = some a) (hnear : a.plotsNear coord = .ok ids) :
    Edit.Ends (g.build world coord) s fun outcome _ => outcome.IsBuilt := by
  obtain ⟨grid, hgrid⟩ := Area.exists_grid_of_plotsNear hnear
  refine build_ends_of_mode ha hnear fun s' _ _ _ _ => ?_
  rw [hhooks]
  cases g.mode with
  | replacing =>
      refine (Site.onQueue_ends (Hosted.withChunk_ends fun c =>
        buildAlone_ends hgrid _ world coord (c, s'.host))).mono fun outcome _ hdone => ?_
      obtain ⟨⟨-, -, houtcome, -⟩, -⟩ := hdone
      exact ⟨_, .inl houtcome⟩
  | augmenting foreign =>
      have hasked : Edit.Ends (askForeign foreign world coord) s' fun _ _ => True := by
        obtain ⟨log, hasked⟩ := askForeign_eq foreign world coord s'
        exact ⟨_, _, hasked, trivial⟩
      refine hasked.bind fun terrain s'' _ => ?_
      refine (Site.onQueue_ends (Hosted.withChunk_ends fun c =>
        buildOver_ends hgrid _ world coord terrain (c, s''.host))).mono fun outcome _ hdone => ?_
      obtain ⟨⟨-, -, houtcome⟩, -⟩ := hdone
      exact houtcome

/-- In a world without an area a chunk is left empty. -/
theorem build_void (g : Generator σ) (coord : ChunkCoord) {s : Site κ σ}
    (ha : s.areas[world]? = none) :
    Edit.Ends (g.build world coord) s fun outcome _ => outcome = .void := by
  have hempty (t : Chunk × σ) :
      Edit.Ends (resetTo (.empty coord)) t fun _ _ => True := ⟨(), _, rfl, trivial⟩
  unfold build
  refine (makeQueue_ends world s).bind fun _ s' hs' => Edit.ends_get_bind ?_
  obtain ⟨-, hareas, -⟩ := hs'
  rw [hareas, ha]
  have hlogged (line : LogLine) : Edit.Ends (Site.addLine line) s' fun _ _ => True :=
    ⟨_, _, rfl, trivial⟩
  refine (hlogged _).bind fun _ s'' _ => ?_
  exact (Site.onQueue_ends (Hosted.withChunk_ends fun c => hempty (c, s''.host))).bind
    fun _ _ _ => Edit.ends_pure rfl

/-- A request for a chunk near which the plots cannot be listed fails before any hook is asked. -/
theorem request_fails (g : Generator σ) {s : Site κ σ} (ha : s.areas[world]? = some a)
    {e : Failure} (hnear : a.plotsNear coord = .error e) :
    ∃ t, request world coord (g, s) = .error e t ∧ t.2.host = s.host ∧
      ∀ other, t.2.queue other = s.queue other := by
  obtain ⟨_, ⟨g', s'⟩, hload, -, -, hareas, -, hhost, hqueues⟩ := load_ends world g s
  obtain ⟨_, s'', hok, hhost', hareas', -, hqueues'⟩ := makeQueue_ends world s'
  have hfetch : prefetch s'' a coord = .error e := by
    unfold prefetch
    rw [hnear]
    rfl
  have hbuild : g'.build world coord s' = .error e s'' := by
    unfold build
    rw [Edit.bind_of_ok hok, Edit.get_bind, hareas'.trans hareas, ha]
    dsimp only
    rw [Edit.get_bind, hfetch, Edit.liftM_error_bind]
    rfl
  refine ⟨(g', s''), ?_, hhost'.trans hhost, fun other => (hqueues' other).trans ?_⟩
  · unfold request
    simp only [bind, EStateM.bind, hload, hbuild]
  · unfold Site.queue
    exact congrArg (·.getD other (.new other)) hqueues

/-- A chunk near which the plots cannot be listed cannot be asked for. -/
theorem request_of_plotsNear_error (g : Generator σ) {s : Site κ σ} (ha : s.areas[world]? = some a)
    {e : Failure} (hnear : a.plotsNear coord = .error e) :
    ∃ t, request world coord (g, s) = .error e t := by
  obtain ⟨t, hrequest, -⟩ := request_fails g ha hnear
  exact ⟨t, hrequest⟩

/-- **Which requests are answered.** Let a generator of any mode have no hooks, and let its foreign
generator, if it has one, deliver anything, refuse or break down. In a world without an area every
request leaves the chunk empty. In a world with an area whose period is in range, the layout is
built for every chunk but those near which the cells of an axis run out of numbers, and there the
request is cut off by an overflow. With periods of three columns or more there are no such chunks.
-/
theorem request_answered (g : Generator σ) (hhooks : g.hooks = {}) (s : Site κ σ) (world : String)
    (coord : ChunkCoord) :
    (s.areas[world]? = none → ∃ t, request world coord (g, s) = .ok .void t) ∧
    ∀ a, s.areas[world]? = some a → Fits (a.plotSize.toInt + a.roadWidth.toInt) →
      ∃ grid, a.grid = .ok grid ∧
        (if grid.RunsOut coord then
          ∃ t, request world coord (g, s) = .error (.abort (.overflow .add)) t
        else ∃ outcome t, request world coord (g, s) = .ok outcome t ∧ outcome.IsBuilt) ∧
        (grid.RunsOut coord → grid.period < 3) := by
  obtain ⟨_, ⟨g', s'⟩, hload, -, hhooks', hareas, -⟩ := load_ends world g s
  dsimp only at hhooks' hareas
  rw [hhooks] at hhooks'
  constructor
  · intro ha
    obtain ⟨outcome, s'', hbuild, rfl⟩ := build_void g' coord (hareas ▸ ha)
    exact ⟨_, request_of_build hload hbuild⟩
  · intro a ha hfits
    obtain ⟨grid, hgrid, -⟩ := Area.exists_grid hfits
    have hcases := Area.plotsNear_cases hgrid coord
    refine ⟨grid, hgrid, ?_, fun hout => Int.not_le.mp fun h => Grid.not_runsOut h coord hout⟩
    split
    case isTrue hout =>
        rw [if_pos hout] at hcases
        exact request_of_plotsNear_error g ha hcases
    case isFalse hin =>
        rw [if_neg hin] at hcases
        obtain ⟨ids, hnear⟩ := hcases
        obtain ⟨outcome, s'', hbuild, hbuilt⟩ := build_total hhooks' (hareas ▸ ha) hnear
        exact ⟨outcome, _, request_of_build hload hbuild, hbuilt⟩

/-- An area of plots of one column, side by side. -/
def tiled : Area :=
  { Area.standard with
    plotSize := 1
    roadWidth := 0
    plotSize_pos := by decide
    roadWidth_nonneg := by decide }

/-- A site whose world is tiled. -/
def tiledSite : Site Unit Unit where
  areas := ({} : Std.TreeMap String Area).insert "plotworld" tiled
  host := ()

/-- A foreign generator that breaks down at every chunk. -/
def broken : Foreign Unit where
  name := "broken"
  generate _ _ host := (.breakdown, host)

/-- The chunk before the last on the first axis can still be asked for, although the foreign
generator breaks down. -/
theorem request_answered_broken :
    tiledSite.areas["plotworld"]? = some tiled ∧
      Fits (tiled.plotSize.toInt + tiled.roadWidth.toInt) ∧
      ∃ outcome t, request "plotworld" ⟨134217726, -3⟩
        (⟨"plotweave+broken", .augmenting broken, {}, []⟩, tiledSite) = .ok outcome t ∧
          outcome.IsBuilt := by
  have ha : tiledSite.areas["plotworld"]? = some tiled := Std.TreeMap.getElem?_insert_self
  obtain ⟨-, hworld⟩ := request_answered ⟨"plotweave+broken", .augmenting broken, {}, []⟩ rfl
    tiledSite "plotworld" ⟨134217726, -3⟩
  obtain ⟨grid, hgrid, hanswer, -⟩ := hworld tiled ha (by decide)
  cases hgrid
  rw [if_neg (by decide)] at hanswer
  exact ⟨ha, by decide, hanswer⟩

/-- **The last chunk of a tiled world** cannot be asked for: the cell behind its last column has no
number. -/
theorem request_cut_off :
    Fits (tiled.plotSize.toInt + tiled.roadWidth.toInt) ∧
      ∃ t, request "plotworld" ⟨134217727, 0⟩ ((.replacing : Generator Unit), tiledSite) =
        .error (.abort (.overflow .add)) t :=
  ⟨by decide, request_of_plotsNear_error _
    (show tiledSite.areas["plotworld"]? = some tiled from Std.TreeMap.getElem?_insert_self) rfl⟩

end Generator

end Cadastre
