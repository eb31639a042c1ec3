import Cadastre.Server.Run
/-!
# Cadastre.Proofs.Server.Start

**A run before its first event** (`Run.opened_of_start`). Every configured world has its area and
its generator, no other world has any, and nothing has been asked for yet. Worlds that can all be
built can be started (`Run.exists_start`). A run by a schedule goes on from there, with one line in
its log (`Run.bySchedule_of_start`).
-/

namespace Cadastre.Run

variable {σ : Type}

/-- A run with one more world. -/
def addWorld (run : Run σ) (entry : String × WorldSpec) : Except Failure (Run σ) := do
  let a ← entry.2.buildArea entry.1
  return { run with
    site := run.site.putArea a
    generators := run.generators.insert entry.1 (generatorFor entry.2 a) }

theorem start_eq (config : ServerConfig) (host : σ) :
    start config host =
      config.worlds.toList.foldlM addWorld { site := { host }, generators := ∅ } := rfl

/-- The area of a world bears its name, and the settings allow no radius below zero. -/
theorem of_buildArea {spec : WorldSpec} {world : String} {a : Area}
    (h : spec.buildArea world = .ok a) : a.world = world ∧ 0 ≤ spec.radius.toInt := by
  unfold WorldSpec.buildArea at h
  by_cases hradius : spec.radius.toInt < 0
  · rw [if_pos hradius] at h
    cases h
  · rw [if_neg hradius] at h
    refine ⟨?_, Int.not_lt.mp hradius⟩
    simp only at h
    split at h
    · exact (Area.ofSettings_measures h).1
    · cases h

/-- A run whose worlds are there and in which nothing has happened. -/
structure Opened (config : ServerConfig) (host : σ) (run : Run σ) : Prop where
  merges : run.site.merges = {}
  queues : run.site.queues = ∅
  host : run.site.host = host
  outcomes : run.outcomes = ∅
  committed : run.committed = 0
  configured : ∀ {world spec}, config.worlds[world]? = some spec →
    ∃ a, spec.buildArea world = .ok a ∧ run.site.areas[world]? = some a ∧
      run.generators[world]? = some (generatorFor spec a)
  unconfigured : ∀ {world : String}, config.worlds[world]? = none →
    run.site.areas[world]? = none ∧ run.generators[world]? = none

/-- A world that is added gets its area and its generator, and nothing else changes. -/
theorem addWorld_spec {run run' : Run σ} {entry : String × WorldSpec}
    (h : run.addWorld entry = .ok run') :
    ∃ a, entry.2.buildArea entry.1 = .ok a ∧ run' = { run with
      site := { run.site with areas := run.site.areas.insert entry.1 a }
      generators := run.generators.insert entry.1 (generatorFor entry.2 a) } := by
  obtain ⟨a, ha, hrun⟩ := exists_of_bind_eq_ok h
  refine ⟨a, ha, ?_⟩
  cases hrun
  rw [Site.putArea, (of_buildArea ha).1]

/-- Worlds of different names do not get into each other's way. -/
theorem foldlM_addWorld {entries : List (String × WorldSpec)}
    (hdistinct : entries.Pairwise fun e e' => e.1 ≠ e'.1) {run run' : Run σ}
    (h : entries.foldlM addWorld run = .ok run') :
    (∃ areas generators,
      run' = { run with site := { run.site with areas }, generators }) ∧
    (∀ entry ∈ entries, ∃ a, entry.2.buildArea entry.1 = .ok a ∧
      run'.site.areas[entry.1]? = some a ∧
      run'.generators[entry.1]? = some (generatorFor entry.2 a)) ∧
    ∀ world, (∀ entry ∈ entries, entry.1 ≠ world) →
      run'.site.areas[world]? = run.site.areas[world]? ∧
      run'.generators[world]? = run.generators[world]? := by
  induction entries generalizing run with
  | nil =>
      cases h
      exact ⟨⟨_, _, rfl⟩, nofun, fun _ _ => ⟨rfl, rfl⟩⟩
  | cons entry rest ih =>
      obtain ⟨hfirst, hrest⟩ := List.pairwise_cons.mp hdistinct
      rw [List.foldlM_cons] at h
      obtain ⟨run₁, hrun₁, h⟩ := exists_of_bind_eq_ok h
      obtain ⟨a, ha, rfl⟩ := addWorld_spec hrun₁
      obtain ⟨⟨areas, generators, rfl⟩, hin, hout⟩ := ih hrest h
      refine ⟨⟨areas, generators, rfl⟩, fun other hother => ?_, fun world hworld => ?_⟩
      · rcases List.mem_cons.mp hother with rfl | hother
        · obtain ⟨hareas, hgenerators⟩ := hout other.1 fun e he => (hfirst e he).symm
          refine ⟨a, ha, hareas.trans ?_, hgenerators.trans ?_⟩
          · exact Std.TreeMap.getElem?_insert_self
          · exact Std.TreeMap.getElem?_insert_self
        · exact hin other hother
      · have hne : entry.1 ≠ world := hworld entry List.mem_cons_self
        obtain ⟨hareas, hgenerators⟩ := hout world fun e he => hworld e (List.mem_cons_of_mem _ he)
        refine ⟨hareas.trans ?_, hgenerators.trans ?_⟩
        · dsimp only
          rw [Std.TreeMap.getElem?_insert, if_neg (mt Std.LawfulEqCmp.compare_eq_iff_eq.mp hne)]
        · dsimp only
          rw [Std.TreeMap.getElem?_insert, if_neg (mt Std.LawfulEqCmp.compare_eq_iff_eq.mp hne)]

theorem distinct_worlds (config : ServerConfig) :
    config.worlds.toList.Pairwise fun e e' => e.1 ≠ e'.1 :=
  Std.TreeMap.distinct_keys_toList.imp fun h => mt Std.LawfulEqCmp.compare_eq_iff_eq.mpr h

/-- **What a run begins with.** -/
theorem opened_of_start {config : ServerConfig} {host : σ} {run : Run σ}
    (h : start config host = .ok run) : Opened config host run := by
  rw [start_eq] at h
  obtain ⟨⟨areas, generators, rfl⟩, hin, hout⟩ := foldlM_addWorld (distinct_worlds config) h
  refine ⟨rfl, rfl, rfl, rfl, rfl, fun {world spec} hspec => ?_, fun {world} hnone => ?_⟩
  · exact hin (world, spec) (Std.TreeMap.mem_toList_iff_getElem?_eq_some.mpr hspec)
  · obtain ⟨hareas, hgenerators⟩ := hout world fun entry hentry heq => by
      have hsome := Std.TreeMap.mem_toList_iff_getElem?_eq_some.mp hentry
      rw [heq, hnone] at hsome
      cases hsome
    exact ⟨hareas.trans Std.TreeMap.getElem?_emptyc, hgenerators.trans Std.TreeMap.getElem?_emptyc⟩

/-- **Worlds that can be built can be started.** -/
theorem exists_start {config : ServerConfig}
    (h : ∀ entry ∈ config.worlds.toList, ∃ a, entry.2.buildArea entry.1 = .ok a) (host : σ) :
    ∃ run, start config host = .ok run := by
  rw [start_eq]
  generalize ({ site := { host }, generators := ∅ } : Run σ) = run
  generalize config.worlds.toList = entries at h
  induction entries generalizing run with
  | nil => exact ⟨run, rfl⟩
  | cons entry rest ih =>
      obtain ⟨a, ha⟩ := h entry List.mem_cons_self
      have hfirst : ∃ run₁, run.addWorld entry = .ok run₁ := by
        unfold addWorld
        rw [ha]
        exact ⟨_, rfl⟩
      obtain ⟨run₁, hrun₁⟩ := hfirst
      rw [List.foldlM_cons, hrun₁]
      exact ih run₁ fun e he => h e (List.mem_cons_of_mem _ he)

/-- A run with the line that opens its log. -/
def announced (config : ServerConfig) (run : Run σ) : Run σ :=
  { run with site := { run.site with
      log := run.site.log.push
        (.info ("Generating " ++ numeral config.worlds.size ++ " world(s)")) } }

/-- A run by a schedule, from what it begins with on. -/
theorem bySchedule_of_start (sink : Sink LogLine σ) {config : ServerConfig} {host : σ} {run : Run σ}
    (h : start config host = .ok run) (schedule : List RunEvent) :
    bySchedule sink config schedule host =
      let ended := (schedule.foldl (step sink) (run.announced config)).finish sink config
      ⟨ended.1, ended.2.site.log, ended.2.site.host⟩ := by
  unfold bySchedule
  rw [h]
  rfl

end Cadastre.Run
