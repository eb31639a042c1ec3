import Cadastre.Proofs.Server.Delivery
import Cadastre.Proofs.Server.Requests
/-!
# Cadastre.Proofs.Server.Schedule

**A run does not depend on its schedule** (`Run.schedule_irrelevant`).

Whatever the order of the requests and wherever rounds are held between them, a receiver that never
fails is handed each chunk of each world once, and always with the product of its place
(`WorldSpec.product`), and the run reports the same. Every event of a schedule keeps what is known
of a run under way (`Run.Underway`): each request adds a chunk that is wanted, and each round hands
over the ones that are pending.
-/

namespace Cadastre

variable {σ : Type}

/-! ### What is known beforehand -/

/-- The configuration's worlds can be built, each with its area, and no request for one of their
chunks overflows: the plots near the chunk can be listed. Where they cannot, every request for the
chunk fails (`Generator.request_of_plotsNear_error`). -/
structure ServerConfig.Ready (config : ServerConfig) (area : String → Area) : Prop where
  builds : ∀ {world : String} {spec : WorldSpec}, config.worlds[world]? = some spec →
    spec.buildArea world = .ok (area world)
  near : ∀ {world : String} {spec : WorldSpec}, config.worlds[world]? = some spec →
    ∀ coord, spec.InSquare coord → ∃ ids, (area world).plotsNear coord = .ok ids

/-- What is made of a chunk of a world. -/
def ServerConfig.product (config : ServerConfig) (area : String → Area) (world : String)
    (coord : ChunkCoord) : Chunk :=
  (config.worlds.getD world {}).product (area world) coord

/-- What is reported of a world of an area. -/
def WorldSpec.summary (spec : WorldSpec) (world : String) (a : Area) : WorldSummary :=
  { world
    generated := spec.side ^ 2
    columns := (spec.chunks.map fun coord => a.ownedColumns coord .none).sum }

theorem ServerConfig.product_of_configured {config : ServerConfig} {area : String → Area}
    {world : String} {spec : WorldSpec} (hspec : config.worlds[world]? = some spec)
    (coord : ChunkCoord) : config.product area world coord = spec.product (area world) coord := by
  rw [product, Std.TreeMap.getD_eq_getD_getElem?, hspec, Option.getD_some]

namespace Run

/-! ### Runs under way -/

/-- A run in which some chunks were `wanted`, of which some were `delivered`. -/
structure Underway (config : ServerConfig) (area : String → Area)
    (received : σ → List (String × Chunk)) (before : List (String × Chunk)) (run : Run σ)
    (delivered wanted : List (String × ChunkCoord)) : Prop where
  delivers : run.site.Delivers received (config.product area) before delivered wanted
  committed : run.committed = delivered.length
  merges : run.site.merges = {}
  areas : ∀ {world : String} {spec : WorldSpec}, config.worlds[world]? = some spec →
    run.site.areas[world]? = some (area world)
  generators : ∀ {world : String} {spec : WorldSpec}, config.worlds[world]? = some spec → ∃ g,
    run.generators[world]? = some g ∧
      g.mode = (generatorFor spec (area world) : Generator σ).mode ∧ g.hooks = {}
  outcomes : ∀ key ∈ wanted,
    run.outcomes[key]? = some (.ok (.generated ((area key.1).ownedColumns key.2 .none)))

variable {config : ServerConfig} {area : String → Area} {received : σ → List (String × Chunk)}
  {before : List (String × Chunk)} {run : Run σ} {delivered wanted : List (String × ChunkCoord)}
  {sink : Sink LogLine σ} {world : String} {spec : WorldSpec} {coord : ChunkCoord}

namespace Underway

/-- A run that has begun, and in which nothing was asked for. -/
theorem of_opened (hready : config.Ready area) {host : σ} (h : Opened config host run) :
    Underway config area received (received host) run [] [] where
  delivers := by
    have hqueue (world : String) : run.site.queue world = .new world := by
      rw [Site.queue, h.queues]
      exact Std.TreeMap.getD_emptyc
    refine ⟨fun world => ?_, fun world v hv => ?_, fun world coord => ?_, ?_⟩
    · rw [hqueue]
      rfl
    · rw [hqueue] at hv
      cases hv
    · rw [hqueue]
      rfl
    · rw [h.host, List.map_nil, List.append_nil]
  committed := h.committed
  merges := h.merges
  areas hspec := by
    obtain ⟨a, hbuild, hareas, -⟩ := h.configured hspec
    cases (hready.builds hspec).symm.trans hbuild
    exact hareas
  generators hspec := by
    obtain ⟨a, hbuild, -, hgenerator⟩ := h.configured hspec
    cases (hready.builds hspec).symm.trans hbuild
    refine ⟨_, hgenerator, rfl, ?_⟩
    unfold generatorFor
    split <;> rfl
  outcomes := nofun

/-- Where only the site and the count change, only what was delivered has to be looked at. -/
theorem of_site (h : Underway config area received before run delivered wanted)
    {site : Site LogLine σ} {committed : Nat} {delivered' : List (String × ChunkCoord)}
    (hdelivers : site.Delivers received (config.product area) before delivered' wanted)
    (hcommitted : committed = delivered'.length) (hareas : site.areas = run.site.areas)
    (hmerges : site.merges = run.site.merges) :
    Underway config area received before { run with site, committed } delivered' wanted where
  delivers := hdelivers
  committed := hcommitted
  merges := hmerges.trans h.merges
  areas hspec := hareas ▸ h.areas hspec
  generators := h.generators
  outcomes := h.outcomes

/-- Logging changes nothing. -/
theorem withLog (h : Underway config area received before run delivered wanted)
    (log : Array LogLine) : Underway config area received before
      { run with site := { run.site with log } } delivered wanted :=
  h.of_site (h.delivers.of_frame rfl fun _ => ⟨rfl, rfl, rfl⟩) h.committed rfl rfl

/-- **A round** hands over what is wanted and was not delivered. -/
theorem round (hsink : sink.Records received)
    (h : Underway config area received before run delivered wanted) :
    ∃ delivered', Underway config area received before (run.round sink) delivered' wanted := by
  obtain ⟨count, site, hok, ⟨hareas, hmerges⟩, delivered', hdelivers, hlength, -⟩ :=
    h.delivers.flushAll hsink
  refine ⟨delivered', ?_⟩
  unfold Run.round
  rw [hok]
  exact h.of_site hdelivers (by rw [hlength, h.committed]) hareas hmerges

/-- **A request** makes one more chunk wanted. -/
theorem request (hready : config.Ready area)
    (h : Underway config area received before run delivered wanted)
    (hspec : config.worlds[world]? = some spec) (hcoord : spec.InSquare coord)
    (hnew : (world, coord) ∉ wanted) : Underway config area received before
      (run.request world coord) delivered ((world, coord) :: wanted) := by
  obtain ⟨g, hg, hmode, hhooks⟩ := h.generators hspec
  obtain ⟨ids, hnear⟩ := hready.near hspec coord hcoord
  obtain ⟨outcome, ⟨g', site⟩, hok, rfl, hmade, hmode', hhooks'⟩ :=
    Generator.request_made hmode hhooks (h.areas hspec) h.merges hnear
  dsimp only at hmade hmode' hhooks'
  rw [← ServerConfig.product_of_configured hspec] at hmade
  have hasked : run.generators.getD world .replacing = g := by
    rw [Std.TreeMap.getD_eq_getD_getElem?, hg, Option.getD_some]
  unfold Run.request
  simp only [hasked, hok]
  exact
    { delivers := h.delivers.made hmade hnew
      committed := h.committed
      merges := hmade.merges.trans h.merges
      areas := fun hspec' => hmade.areas ▸ h.areas hspec'
      generators := fun {other spec'} hspec' => by
        dsimp only
        rw [Std.TreeMap.getElem?_insert]
        by_cases hsame : compare world other = .eq
        · cases Std.LawfulEqCmp.eq_of_compare hsame
          cases hspec.symm.trans hspec'
          exact ⟨g', if_pos hsame, hmode'.trans hmode, hhooks'⟩
        · rw [if_neg hsame]
          exact h.generators hspec'
      outcomes := fun key hkey => by
        dsimp only
        rw [Std.TreeMap.getElem?_insert]
        split
        case isTrue heq => rw [← ChunkCoord.compareLex_eq_iff.mp heq]
        case isFalse hne =>
          refine h.outcomes key ((List.mem_cons.mp hkey).resolve_left fun heq => hne ?_)
          rw [heq]
          exact Std.ReflCmp.compare_self }

/-- **A schedule** makes the chunks wanted that it asks for. -/
theorem schedule (hready : config.Ready area) (hsink : sink.Records received)
    {schedule : List RunEvent}
    (hasked : ∀ key ∈ asked schedule, ∃ spec,
      config.worlds[key.1]? = some spec ∧ spec.InSquare key.2)
    (hnodup : (asked schedule ++ wanted).Nodup)
    (h : Underway config area received before run delivered wanted) :
    ∃ delivered' wanted', Underway config area received before
      (schedule.foldl (step sink) run) delivered' wanted' ∧
        wanted'.Perm (asked schedule ++ wanted) := by
  induction schedule generalizing run delivered wanted with
  | nil => exact ⟨delivered, wanted, h, .refl _⟩
  | cons event rest ih =>
      cases event with
      | round =>
          obtain ⟨delivered', h'⟩ := h.round hsink
          exact ih hasked hnodup h'
      | request world coord =>
          obtain ⟨spec, hspec, hcoord⟩ := hasked (world, coord) List.mem_cons_self
          obtain ⟨hnew, -⟩ := List.nodup_cons.mp hnodup
          have hmiddle : (asked rest ++ (world, coord) :: wanted).Perm
              (asked (.request world coord :: rest) ++ wanted) := List.perm_middle
          have h' := h.request hready hspec hcoord fun hmem => hnew (List.mem_append_right _ hmem)
          obtain ⟨delivered', wanted', hreached, hperm⟩ :=
            ih (fun key hkey => hasked key (List.mem_cons_of_mem _ hkey))
              (hmiddle.nodup_iff.mpr hnodup) h'
          exact ⟨delivered', wanted', hreached, hperm.trans hmiddle⟩

/-! ### The end of a run -/

/-- A summary of chunks that were all generated counts them and their columns. -/
theorem foldlM_generated (columns : ChunkCoord → Nat)
    {record : WorldSummary → ChunkCoord → Except Failure WorldSummary} {chunks : List ChunkCoord}
    (hrecord : ∀ coord ∈ chunks, ∀ summary : WorldSummary,
      record summary coord = .ok (summary.record (.generated (columns coord))))
    (summary : WorldSummary) :
    chunks.foldlM record summary = .ok { summary with
      generated := summary.generated + chunks.length
      columns := summary.columns + (chunks.map columns).sum } := by
  induction chunks generalizing summary with
  | nil => rfl
  | cons coord rest ih =>
      rw [List.foldlM_cons, hrecord coord List.mem_cons_self]
      refine (ih (fun other hmem => hrecord other (List.mem_cons_of_mem _ hmem)) _).trans ?_
      simp only [WorldSummary.record, List.length_cons, List.map_cons, List.sum_cons]
      congr 2 <;> omega

/-- A world whose chunks were all wanted is reported with all of them generated. -/
theorem summarize (h : Underway config area received before run delivered wanted)
    (hall : ∀ coord ∈ spec.chunks, (world, coord) ∈ wanted) :
    run.summarize world spec = .ok (spec.summary world (area world)) := by
  unfold Run.summarize
  refine (foldlM_generated (fun coord => (area world).ownedColumns coord .none)
    (fun coord hcoord summary => ?_) { world }).trans ?_
  · rw [h.outcomes _ (hall coord hcoord)]
    rfl
  · simp only [WorldSpec.summary, WorldSpec.length_chunks, Nat.zero_add]

/-- A world whose chunks were all wanted can be reported. -/
theorem finishWorld (hready : config.Ready area)
    (h : Underway config area received before run delivered wanted)
    (hspec : config.worlds[world]? = some spec)
    (hall : ∀ coord ∈ spec.chunks, (world, coord) ∈ wanted) : ∃ run',
      run.finishWorld world spec = .ok (spec.summary world (area world), run') ∧
        Underway config area received before run' delivered wanted := by
  have hradius := (of_buildArea (hready.builds hspec)).2
  have horigin : spec.InSquare (.containing 0 0) := by
    show (-spec.radius.toInt ≤ 0 ∧ 0 ≤ spec.radius.toInt) ∧
      -spec.radius.toInt ≤ 0 ∧ 0 ≤ spec.radius.toInt
    omega
  obtain ⟨ids, hnear⟩ := hready.near hspec _ horigin
  obtain ⟨safe, hsafe⟩ := Generator.exists_canSpawn (run.generators.getD world .replacing)
    (h.areas hspec) hnear
  have hline : ∃ line, run.worldLine world = .ok line := by
    unfold worldLine
    simp only [hsafe]
    exact ⟨_, rfl⟩
  obtain ⟨line, hline⟩ := hline
  let queue := (run.site.queue world).addCompletion
    (.debug ("All chunks of " ++ world ++ " committed"))
  refine ⟨{ run with site := { run.site with
    log := run.site.log.push line
    queues := run.site.queues.insert world queue } }, ?_, ?_⟩
  · unfold Run.finishWorld
    rw [h.summarize hall, hline]
    rfl
  · refine h.of_site (h.delivers.of_frame rfl fun other => ?_) h.committed rfl rfl
    -- A completion is not a chunk.
    unfold Site.queue
    dsimp only
    rw [Std.TreeMap.getD_insert]
    split
    case isTrue heq =>
        cases Std.LawfulEqCmp.eq_of_compare heq
        exact ⟨rfl, rfl, rfl⟩
    case isFalse => exact ⟨rfl, rfl, rfl⟩

theorem finishWorlds (hready : config.Ready area) (entries : List (String × WorldSpec))
    (hentries : ∀ entry ∈ entries, config.worlds[entry.1]? = some entry.2 ∧
      ∀ coord ∈ entry.2.chunks, (entry.1, coord) ∈ wanted)
    (h : Underway config area received before run delivered wanted) : ∃ run',
      run.finishWorlds entries =
          (.ok (entries.map fun entry => entry.2.summary entry.1 (area entry.1)), run') ∧
        Underway config area received before run' delivered wanted := by
  induction entries generalizing run with
  | nil => exact ⟨run, rfl, h⟩
  | cons entry rest ih =>
      obtain ⟨hspec, hall⟩ := hentries entry List.mem_cons_self
      obtain ⟨run₁, hfirst, h₁⟩ := h.finishWorld hready hspec hall
      obtain ⟨run₂, hrest, h₂⟩ := ih (fun e he => hentries e (List.mem_cons_of_mem _ he)) h₁
      refine ⟨run₂, ?_, h₂⟩
      obtain ⟨world, spec⟩ := entry
      unfold Run.finishWorlds
      simp only [hfirst, hrest]
      rfl

/-- **The end of a run** whose chunks were all wanted: the last round hands over what was not
delivered, and the count is that of all of them. -/
theorem finish (hready : config.Ready area) (hsink : sink.Records received)
    (h : Underway config area received before run delivered wanted)
    (hall : ∀ key ∈ asked (requests config), key ∈ wanted) :
    ∃ order : List (String × ChunkCoord),
      (run.finish sink config).1 = .ok ⟨config.worlds.toList.map fun entry =>
        entry.2.summary entry.1 (area entry.1), order.length⟩ ∧ order.Perm wanted ∧
      received (run.finish sink config).2.site.host =
        before ++ order.map fun key => (key.1, config.product area key.1 key.2) := by
  have hentries : ∀ entry ∈ config.worlds.toList, config.worlds[entry.1]? = some entry.2 ∧
      ∀ coord ∈ entry.2.chunks, (entry.1, coord) ∈ wanted := by
    intro entry hentry
    refine ⟨Std.TreeMap.mem_toList_iff_getElem?_eq_some.mp hentry, fun coord hcoord => hall _ ?_⟩
    rw [asked_requests]
    exact List.mem_flatMap.mpr ⟨entry, hentry, List.mem_map_of_mem hcoord⟩
  obtain ⟨run₁, hworlds, h₁⟩ := h.finishWorlds hready config.worlds.toList hentries
  obtain ⟨count, site, hok, -, order, hdelivers, hlength, hperm⟩ := h₁.delivers.flushAll hsink
  refine ⟨order, ?_, hperm, ?_⟩
  · unfold Run.finish
    simp only [hworlds, hok]
    rw [hlength, h₁.committed]
  · unfold Run.finish
    simp only [hworlds, hok]
    exact hdelivers.received

end Underway

/-! ### Runs -/

/-- **A run does not depend on its schedule.** Let the worlds of a configuration be such that they
can be built and no request for a chunk overflows, and let the receiver never fail. Then a run by
any schedule that asks for what the configuration asks for, in whatever order and with whatever
rounds between, succeeds. It reports the worlds in the order of their names, each with all chunks of
its square generated and the same columns, and as many chunks committed as there are in the squares.
And the receiver takes over each chunk of these squares once, in some order, each with its product.
-/
theorem schedule_irrelevant (hready : config.Ready area) (hsink : sink.Records received)
    {schedule : List RunEvent} (hschedule : (asked schedule).Perm (asked (requests config)))
    (host : σ) :
    let report := bySchedule sink config schedule host
    ∃ (summary : RunSummary) (order : List (String × ChunkCoord)), report.result = .ok summary ∧
      summary.worlds = config.worlds.toList.map
        (fun entry => entry.2.summary entry.1 (area entry.1)) ∧
      (summary.worlds.map WorldSummary.world).Pairwise (· < ·) ∧
      summary.committed = (config.worlds.toList.map fun entry => entry.2.side ^ 2).sum ∧
      order.Nodup ∧
      (∀ world coord, (world, coord) ∈ order ↔
        ∃ spec, config.worlds[world]? = some spec ∧ spec.InSquare coord) ∧
      received report.host =
        received host ++ order.map (fun key => (key.1, config.product area key.1 key.2)) ∧
      ∀ key ∈ order, (config.product area key.1 key.2).coord = key.2 := by
  intro report
  have hradius : ∀ entry ∈ config.worlds.toList, 0 ≤ entry.2.radius.toInt := fun entry hentry =>
    (of_buildArea (hready.builds (Std.TreeMap.mem_toList_iff_getElem?_eq_some.mp hentry))).2
  have hmem (key : String × ChunkCoord) : key ∈ asked schedule ↔
      ∃ spec, config.worlds[key.1]? = some spec ∧ spec.InSquare key.2 :=
    hschedule.mem_iff.trans (mem_asked_requests hradius)
  have hnodup : (asked schedule).Nodup := hschedule.nodup_iff.mpr (nodup_asked_requests hradius)
  obtain ⟨run, hrun⟩ := exists_start (fun entry hentry =>
    ⟨_, hready.builds (Std.TreeMap.mem_toList_iff_getElem?_eq_some.mp hentry)⟩) host
  have hopened : Underway config area received (received host) run [] [] :=
    .of_opened hready (opened_of_start hrun)
  have hbegun : Underway config area received (received host) (run.announced config) [] [] :=
    hopened.withLog _
  obtain ⟨delivered, wanted, hreached, hwanted⟩ := hbegun.schedule hready hsink
    (fun key hkey => (hmem key).mp hkey) (by rwa [List.append_nil])
  rw [List.append_nil] at hwanted
  obtain ⟨order, hresult, horder, hreceived⟩ := hreached.finish hready hsink fun key hkey =>
    hwanted.mem_iff.mpr (hschedule.mem_iff.mpr hkey)
  have hall : order.Perm (asked schedule) := horder.trans hwanted
  have hlength : order.length = (config.worlds.toList.map fun entry => entry.2.side ^ 2).sum := by
    rw [hall.length_eq, hschedule.length_eq, length_asked_requests]
  have hnames : (config.worlds.toList.map Prod.fst).Pairwise (· < ·) := by
    have hlt {name name' : String} (h : compare name name' = .lt) : name < name' :=
      compareOfLessAndEq_eq_lt.mp h
    exact Std.TreeMap.ordered_keys_toList.map _ fun _ _ => hlt
  have hreport : report = _ := bySchedule_of_start sink hrun schedule
  rw [hreport]
  refine ⟨_, order, hresult, rfl, ?_, hlength, hall.nodup_iff.mpr hnodup, fun world coord =>
    hall.mem_iff.trans (hmem (world, coord)), hreceived, fun key hkey => ?_⟩
  · rw [List.map_map]
    exact hnames
  · obtain ⟨spec, hspec, hcoord⟩ := (hmem key).mp (hall.mem_iff.mp hkey)
    obtain ⟨ids, hnear⟩ := hready.near hspec key.2 hcoord
    obtain ⟨grid, hgrid⟩ := Area.exists_grid_of_plotsNear hnear
    rw [ServerConfig.product_of_configured hspec, WorldSpec.coord_product hgrid]

/-- A configuration with a world of either kind. -/
def mixed : ServerConfig where
  worlds := (({} : Std.TreeMap String WorldSpec).insert "plotworld" { radius := 1 }).insert
    "flatworld" { mode := .augmenting, radius := 0 }

/-- The area of a world of that configuration. -/
def mixedArea (world : String) : Area := { Area.standard with world }

theorem toList_mixed : mixed.worlds.toList =
    [("flatworld", { mode := .augmenting, radius := 0 }), ("plotworld", { radius := 1 })] := rfl

theorem ready_mixed : mixed.Ready mixedArea := by
  have hbuilds : ∀ entry ∈ mixed.worlds.toList,
      entry.2.buildArea entry.1 = .ok (mixedArea entry.1) := by
    rw [toList_mixed]
    intro entry hentry
    rcases List.mem_cons.mp hentry with rfl | hentry
    · rfl
    · cases List.mem_singleton.mp hentry
      rfl
  have hnear : ∀ entry ∈ mixed.worlds.toList, ∀ coord ∈ entry.2.chunks,
      ((mixedArea entry.1).plotsNear coord).isOk = true := by
    rw [toList_mixed]
    decide
  constructor
  case builds =>
    intro world spec hspec
    exact hbuilds (world, spec) (Std.TreeMap.mem_toList_iff_getElem?_eq_some.mpr hspec)
  case near =>
    intro world spec hspec coord hcoord
    have hentry := Std.TreeMap.mem_toList_iff_getElem?_eq_some.mpr hspec
    have hradius := (of_buildArea (hbuilds (world, spec) hentry)).2
    have hok := hnear (world, spec) hentry coord ((WorldSpec.mem_chunks hradius).mpr hcoord)
    cases hanswer : (mixedArea world).plotsNear coord with
    | ok ids => exact ⟨ids, rfl⟩
    | error e =>
        rw [hanswer] at hok
        cases hok

/-- The requests of that configuration from the last to the first, with a round after each. -/
def backwards : List RunEvent := (requests mixed).reverse.flatMap fun event => [event, .round]

theorem asked_backwards : asked backwards = (asked (requests mixed)).reverse := rfl

theorem schedule_irrelevant_mixed :
    mixed.Ready mixedArea ∧ Tally.sink.recording.Records Prod.snd ∧
      (asked backwards).Perm (asked (requests mixed)) ∧
      ∃ (summary : RunSummary) (order : List (String × ChunkCoord)),
        (bySchedule Tally.sink.recording mixed backwards ({}, [])).result = .ok summary ∧
        summary.worlds = mixed.worlds.toList.map
          (fun entry => entry.2.summary entry.1 (mixedArea entry.1)) ∧
        (summary.worlds.map WorldSummary.world).Pairwise (· < ·) ∧ summary.committed = 10 ∧
        order.Nodup ∧
        (∀ world coord, (world, coord) ∈ order ↔
          ∃ spec, mixed.worlds[world]? = some spec ∧ spec.InSquare coord) ∧
        (bySchedule Tally.sink.recording mixed backwards ({}, [])).host.2 =
          order.map (fun key => (key.1, mixed.product mixedArea key.1 key.2)) ∧
        ∀ key ∈ order, (mixed.product mixedArea key.1 key.2).coord = key.2 := by
  have hperm : (asked backwards).Perm (asked (requests mixed)) :=
    asked_backwards ▸ List.reverse_perm _
  exact ⟨ready_mixed, Tally.steady_sink.records_recording, hperm,
    schedule_irrelevant ready_mixed Tally.steady_sink.records_recording hperm ({}, [])⟩

end Run

end Cadastre
