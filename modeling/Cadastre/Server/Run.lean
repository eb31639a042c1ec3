import Cadastre.Server.Config
import Cadastre.Server.Summary
/-!
# Cadastre.Server.Run

A **run** of the server: every configured world is generated, and its chunks are handed to a
receiver.

Design points:

* A run carries out a schedule: requests for chunks in some order, with rounds of flushing between
  them. `requests` is one such order; a schedule of a run has each of these requests once.
* A run that does one thing at a time follows `inTurn`: the first round is due when the run begins,
  but the requests are already waiting before it. So a round is held after the requests of a run,
  also of one that fails.
* A round that fails is logged, and the next one tries again. The round at the end of the run must
  succeed.
* A request that fails does not keep others from being carried out. The run then fails with the
  first failed request of the first world that has one.
* A request that is cut off, and a round that is, counts as a failure of the surroundings.
-/

namespace Cadastre

/-- One thing that happens in a run. -/
inductive RunEvent
  | request (world : String) (coord : ChunkCoord)
  /-- A round of flushing. -/
  | round
  deriving DecidableEq, Repr

/-- A run in progress. -/
structure Run (σ : Type) where
  site : Site LogLine σ
  generators : Std.TreeMap String (Generator σ)
  /-- What each request came to. -/
  outcomes : Std.TreeMap (String × ChunkCoord) (Except Failure ChunkOutcome)
    (compareLex (compareOn Prod.fst) (compareOn Prod.snd)) := ∅
  /-- Chunks handed on by rounds that succeeded. -/
  committed : Nat := 0

namespace Run

variable {σ : Type}

/-- A failure as the surroundings of a task see it. -/
def contained : Failure → Failure
  | .error e => .error e
  | .abort a => .error (.io ("task was cut off: " ++ a.message))

/-- The generator of a world. -/
def generatorFor (spec : WorldSpec) (a : Area) : Generator σ :=
  match spec.mode with
  | .replacing => .replacing
  | .augmenting => .augmenting (.flat spec.foreignHeight a.biome)

/-- A run of a configuration before its first event. -/
def start (config : ServerConfig) (host : σ) : Except Failure (Run σ) := do
  let empty : Run σ := { site := { host }, generators := ∅ }
  config.worlds.toList.foldlM (fun run (world, spec) => do
    let a ← spec.buildArea world
    return { run with
      site := run.site.putArea a
      generators := run.generators.insert world (generatorFor spec a) }) empty

/-- The requests of a configuration, world by world. -/
def requests (config : ServerConfig) : List RunEvent :=
  config.worlds.toList.flatMap fun (world, spec) => spec.chunks.map (.request world)

/-- Carries out a request. -/
def request (run : Run σ) (world : String) (coord : ChunkCoord) : Run σ :=
  let g := run.generators.getD world .replacing
  let note (result : Except Failure ChunkOutcome) (g : Generator σ) (site : Site LogLine σ) :=
    { run with
      site
      generators := run.generators.insert world g
      outcomes := run.outcomes.insert (world, coord) result }
  match Generator.request world coord (g, run.site) with
  | .ok outcome (g, site) => note (.ok outcome) g site
  | .error e (g, site) => note (.error (contained e)) g site

/-- Carries out a round of flushing. -/
def round (sink : Sink LogLine σ) (run : Run σ) : Run σ :=
  match Site.flushAll sink run.site with
  | .ok count site => { run with site, committed := run.committed + count }
  | .error e site =>
    let line := LogLine.error ("Periodic flush failed: " ++ (contained e).message)
    { run with site := { site with log := site.log.push line } }

def step (sink : Sink LogLine σ) (run : Run σ) : RunEvent → Run σ
  | .request world coord => run.request world coord
  | .round => run.round sink

/-- The summary of a world, if none of its requests failed. -/
def summarize (run : Run σ) (world : String) (spec : WorldSpec) : Except Failure WorldSummary :=
  spec.chunks.foldlM (fun summary coord => do
    match run.outcomes[(world, coord)]? with
    | some result => return summary.record (← result)
    | none => return summary) { world }

def stateName : GeneratorState → String
  | .uninitialized => "Uninitialized"
  | .replacing => "Replacing"
  | .augmenting => "Augmenting"

/-- The line that reports a world whose chunks are all made. -/
def worldLine (run : Run σ) (world : String) : Except Failure LogLine := do
  let g := run.generators.getD world .replacing
  let height := match Generator.spawnHeight run.site world with
    | some height => "Some(" ++ numeral height ++ ")"
    | none => "None"
  let safe ← g.canSpawn run.site world 0 0
  return .info ("World " ++ world ++ " is " ++ stateName (g.state world) ++ ", spawn at (0, " ++ height
    ++ ", 0) is " ++ if safe then "safe" else "blocked")

/-- Reports a world whose chunks are all made, and queues the line for when they are handed on. -/
def finishWorld (run : Run σ) (world : String) (spec : WorldSpec) :
    Except Failure (WorldSummary × Run σ) := do
  let summary ← run.summarize world spec
  let site := { run.site with log := run.site.log.push (← run.worldLine world) }
  let queue := (site.queue world).addCompletion (.debug ("All chunks of " ++ world ++ " committed"))
  return (summary, { run with site := { site with queues := site.queues.insert world queue } })

/-- Reports the worlds in turn. The summaries are those of the worlds up to the first that failed,
and the failure is that one's. -/
def finishWorlds (run : Run σ) : List (String × WorldSpec) → Except Failure (List WorldSummary) × Run σ
  | [] => (.ok [], run)
  | (world, spec) :: rest =>
    match run.finishWorld world spec with
    | .ok (summary, run) =>
      let (summaries, run) := run.finishWorlds rest
      ((summary :: ·) <$> summaries, run)
    | .error e => (.error e, (run.finishWorlds rest).2)

/-- The end of a run: its worlds are reported and a last round is held. -/
def finish (sink : Sink LogLine σ) (config : ServerConfig) (run : Run σ) :
    Except Failure RunSummary × Run σ :=
  match run.finishWorlds config.worlds.toList with
  | (.error e, run) => (.error e, run)
  | (.ok worlds, run) =>
    match Site.flushAll sink run.site with
    | .error e site => (.error (contained e), { run with site })
    | .ok count site =>
      let summary := ⟨worlds, run.committed + count⟩
      (.ok summary, { run with
        site := { site with log := site.log.push (.info summary.text) }
        committed := run.committed + count })

/-- What a run came to, what it logged, and the state that it left its receiver in. -/
structure Report (σ : Type) where
  result : Except Failure RunSummary
  log : Array LogLine
  host : σ

/-- A run of a configuration by a schedule. -/
def bySchedule (sink : Sink LogLine σ) (config : ServerConfig) (schedule : List RunEvent) (host : σ) :
    Report σ :=
  match start config host with
  | .error e => ⟨.error e, #[], host⟩
  | .ok run =>
    let opening := LogLine.info ("Generating " ++ numeral config.worlds.size ++ " world(s)")
    let run := { run with site := { run.site with log := run.site.log.push opening } }
    let (result, run) := (schedule.foldl (step sink) run).finish sink config
    ⟨result, run.site.log, run.site.host⟩

/-- The schedule of a run that does one thing at a time. -/
def inTurn (config : ServerConfig) : List RunEvent :=
  requests config ++ [.round]

/-- A run of a configuration that does one thing at a time. -/
def all (sink : Sink LogLine σ) (config : ServerConfig) (host : σ) : Report σ :=
  bySchedule sink config (inTurn config) host

end Run

end Cadastre
