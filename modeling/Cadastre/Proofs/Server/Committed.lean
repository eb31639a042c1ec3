import Cadastre.Proofs.Generator.Spared
import Cadastre.Proofs.Server.Receivers
import Cadastre.Proofs.Server.Start
import Mathlib.Algebra.GroupWithZero.Nat
/-!
# Cadastre.Proofs.Server.Committed

**What a run counts as committed, and what its receiver took over** (`Run.committed_accounts`), and
what a run of a configuration reports of it (`Run.reported_of_start`).

A round of flushing is answered with the number of chunks that were taken over in it, unless it
fails. Then what was taken over before the failure is counted nowhere: those chunks are not pending
any more, so no later round counts them either. The two numbers therefore differ by what was taken
over in rounds that failed, and by nothing else.

The receiver's own count may be any part of the state of the surroundings that it raises by one for
each chunk it takes over (`Sink.Counts`).
-/

namespace Cadastre

variable {κ σ α : Type}

/-! ### Numbers that follow a count -/

/-- Whether the answer of an edit holds a number that is `n` and what the edit added to a count. No
edit takes anything from the count, also none that fails. -/
structure Edit.Tallies (edit : Edit σ α) (n : Nat) (number : α → Nat) (count : σ → Nat) : Prop where
  le : edit.Leads fun s s' => count s ≤ count s'
  of_ok : ∀ {s a s'}, edit s = .ok a s' → count s' + n = count s + number a

namespace Edit.Tallies

variable {β : Type} {edit : Edit σ α} {n : Nat} {number : α → Nat} {count : σ → Nat}

theorem of_keeps (h : edit.Keeps count) (hn : ∀ {s a s'}, edit s = .ok a s' → number a = n) :
    edit.Tallies n number count where
  le s := (h s).ge
  of_ok hok := by rw [h.of_ok hok, hn hok]

theorem bind {f : α → Edit σ β} {number' : β → Nat} (h : edit.Tallies n number count)
    (hf : ∀ a, (f a).Tallies (number a) number' count) : (edit >>= f).Tallies n number' count where
  le := Edit.Leads.bind (fun _ _ _ hfirst hrest => hfirst.trans hrest) h.le fun a => (hf a).le
  of_ok hok := by
    obtain ⟨a, s₁, hfirst, hrest⟩ := exists_of_bind_ok hok
    have hadded := h.of_ok hfirst
    have hadded' := (hf a).of_ok hrest
    omega

/-- What was counted from nothing can be counted from any number. -/
theorem startingAt (h : edit.Tallies 0 number count) (n : Nat) :
    edit.Tallies n (fun a => n + number a) count where
  le := h.le
  of_ok hok := by
    have hadded := h.of_ok hok
    omega

end Edit.Tallies

namespace Sink

/-! ### Rounds -/

variable {sink : Sink κ σ} {accepted : σ → Nat}

theorem commitAll_tallies (hsink : sink.Counts accepted) (views : List View) :
    (sink.commitAll views).Tallies 0 (fun _ => views.length) fun h => accepted h.host := by
  induction views with
  | nil => exact .of_keeps (.of_pure ()) fun _ => rfl
  | cons v rest ih =>
      constructor
      case le =>
        intro h
        cases hv : sink.commit h.queue.world (h.queue.content v) h with
        | ok u h₁ =>
            rw [Edit.outcome, commitAll_cons_of_ok hv]
            exact (Nat.le.intro (hsink.commit_ok hv).symm).trans (ih.le h₁)
        | error failure h₁ =>
            have hsame := (hsink.commit_error hv).ge
            cases failure with
            | error e => simpa only [Edit.outcome, commitAll, hv] using hsame
            | abort a => simpa only [Edit.outcome, commitAll, hv] using hsame
      case of_ok =>
        intro h u h' hok
        cases hv : sink.commit h.queue.world (h.queue.content v) h with
        | ok u h₁ =>
            rw [commitAll_cons_of_ok hv] at hok
            have hfirst := hsink.commit_ok hv
            have hrest := ih.of_ok hok
            rw [List.length_cons]
            omega
        | error failure h₁ =>
            simp only [commitAll, hv] at hok
            cases failure <;> cases hok

/-- **A flush reports what was taken over.** -/
theorem flush_tallies (hsink : sink.Counts accepted) :
    sink.flush.Tallies 0 FlushReport.committed fun h => accepted h.host := by
  -- Only the receiver counts. All the rest of a flush leaves the count and the number alone.
  unfold flush
  refine .bind (.of_keeps (fun _ => rfl) fun _ => rfl) fun views => ?_
  refine .bind (commitAll_tallies hsink views) fun _ => ?_
  refine .bind (.of_keeps (fun _ => rfl) fun _ => rfl) fun completions => ?_
  refine .bind (.of_keeps (.forM hsink.complete completions) fun _ => rfl) fun _ => ?_
  refine .bind (.of_keeps (fun _ => rfl) fun _ => rfl) fun h => ?_
  dsimp only
  split
  · refine .bind (.of_keeps (fun _ => rfl) fun _ => rfl) fun _ => ?_
    exact .of_keeps (.of_pure _) fun hok => by cases hok; rfl
  · exact .of_keeps (.of_pure _) fun hok => by cases hok; rfl

end Sink

namespace Site

variable {sink : Sink κ σ} {accepted : σ → Nat}

theorem onQueue_tallies {world : String} {edit : Edit (Hosted κ σ) α} {n : Nat} {number : α → Nat}
    (h : edit.Tallies n number fun h => accepted h.host) :
    (onQueue world edit).Tallies n number fun s => accepted s.host where
  le := leads_onQueue (R := fun s s' => accepted s ≤ accepted s') h.le
  of_ok {s a s'} hok := by
    unfold onQueue at hok
    cases hrun : edit ⟨s.queue world, s.log, s.host⟩ with
    | ok a h' =>
        simp only [hrun] at hok
        cases hok
        exact h.of_ok hrun
    | error e h' =>
        simp only [hrun] at hok
        cases hok

/-- **A round is answered with the number of chunks that were taken over.** -/
theorem flushAll_tallies (hsink : sink.Counts accepted) :
    (flushAll sink).Tallies 0 id fun s => accepted s.host := by
  have hworlds (worlds : List String) (n : Nat) :
      (worlds.foldlM (fun count world => do
        return count + (← onQueue world sink.flush).committed) n : Edit (Site κ σ) Nat).Tallies n id
          fun s => accepted s.host := by
    induction worlds generalizing n with
    | nil => exact .of_keeps (.of_pure n) fun hok => by cases hok; rfl
    | cons world rest ih =>
        rw [List.foldlM_cons, bind_assoc]
        refine .bind ((onQueue_tallies (Sink.flush_tallies hsink)).startingAt n) fun report => ?_
        rw [pure_bind]
        exact ih (n + report.committed)
  exact .bind (.of_keeps (fun _ => rfl) fun _ => rfl) fun s => hworlds s.worlds 0

end Site

namespace Run

/-! ### Requests -/

variable {γ : Type} {f : σ → γ} {accepted : σ → Nat} {sink : Sink LogLine σ}

/-- Whether the generators of a run leave some part of the state of their surroundings alone. -/
def Spares (run : Run σ) (f : σ → γ) : Prop :=
  ∀ (world : String) (g : Generator σ), run.generators[world]? = some g → g.Spares f

/-- The generators of a configuration leave their surroundings alone. -/
theorem spares_of_start {config : ServerConfig} {host : σ} {run : Run σ}
    (h : start config host = .ok run) : run.Spares f := by
  intro world g hg
  have hopened := opened_of_start h
  cases hspec : config.worlds[world]? with
  | none =>
      rw [(hopened.unconfigured hspec).2] at hg
      cases hg
  | some spec =>
      obtain ⟨a, -, -, hgenerator⟩ := hopened.configured hspec
      rw [hgenerator] at hg
      cases hg
      unfold generatorFor
      cases spec.mode with
      | replacing => exact Generator.spares_replacing
      | augmenting =>
          refine ⟨fun h => ?_, fun _ => .of_pure false, fun _ => .of_pure false⟩
          cases h
          exact fun _ _ _ => rfl

/-- A request of a run leaves alone what the generators spare, and counts nothing. -/
theorem spares_request {run : Run σ} (hrun : run.Spares f) (world : String) (coord : ChunkCoord) :
    (run.request world coord).Spares f ∧
      f (run.request world coord).site.host = f run.site.host ∧
      (run.request world coord).committed = run.committed := by
  have hg : (run.generators.getD world .replacing).Spares f := by
    rw [Std.TreeMap.getD_eq_getD_getElem?]
    cases hfound : run.generators[world]? with
    | none => exact Generator.spares_replacing
    | some g => exact hrun world g hfound
  have hrequest := Generator.spares_request hg world coord run.site
  have hinsert {g : Generator σ} (hg : g.Spares f) (other : String) (g' : Generator σ)
      (hfound : (run.generators.insert world g)[other]? = some g') : g'.Spares f := by
    rw [Std.TreeMap.getElem?_insert] at hfound
    split at hfound
    · cases hfound
      exact hg
    · exact hrun other g' hfound
  unfold Edit.outcome at hrequest
  unfold request
  rcases hanswer : Generator.request world coord
      (run.generators.getD world .replacing, run.site) with ⟨outcome, g, site⟩ | ⟨e, g, site⟩
  · rw [hanswer] at hrequest
    simp only [hanswer]
    exact ⟨hinsert hrequest.1, hrequest.2, trivial⟩
  · rw [hanswer] at hrequest
    simp only [hanswer]
    exact ⟨hinsert hrequest.1, hrequest.2, trivial⟩

/-! ### Runs -/

/-- Between two states of a run the receiver took over what was counted, and `missed` more. -/
def Accounts (accepted : σ → Nat) (run run' : Run σ) (missed : Nat) : Prop :=
  accepted run'.site.host + run.committed = accepted run.site.host + run'.committed + missed

/-- The number of chunks that are taken over in a round and not counted, because the round fails. -/
def uncounted (sink : Sink LogLine σ) (accepted : σ → Nat) (site : Site LogLine σ) : Nat :=
  match Site.flushAll sink site with
  | .ok _ _ => 0
  | .error _ site' => accepted site'.host - accepted site.host

/-- The sites at which the rounds of a schedule begin. -/
def rounds (sink : Sink LogLine σ) : Run σ → List RunEvent → List (Site LogLine σ)
  | _, [] => []
  | run, .round :: rest => run.site :: (run.round sink).rounds sink rest
  | run, .request world coord :: rest => (run.request world coord).rounds sink rest

/-- The site at which the last round begins, if one is held. -/
def lastRound (config : ServerConfig) (run : Run σ) : List (Site LogLine σ) :=
  match run.finishWorlds config.worlds.toList with
  | (.ok _, run) => [run.site]
  | (.error _, _) => []

theorem Accounts.trans {run₁ run₂ run₃ : Run σ} {missed missed' : Nat}
    (h : Accounts accepted run₁ run₂ missed) (h' : Accounts accepted run₂ run₃ missed') :
    Accounts accepted run₁ run₃ (missed + missed') := by
  unfold Accounts at *
  omega

/-- A round counts what the receiver takes over in it, unless it fails. -/
theorem accounts_round (hsink : sink.Counts accepted) (run : Run σ) :
    Accounts accepted run (run.round sink) (uncounted sink accepted run.site) := by
  have htallies := Site.flushAll_tallies hsink
  unfold Accounts uncounted round
  cases hflush : Site.flushAll sink run.site with
  | ok count site =>
      have hok := htallies.of_ok hflush
      simp only [id_eq] at hok ⊢
      omega
  | error e site =>
      have hle := htallies.le.of_error hflush
      dsimp only at hle ⊢
      omega

theorem spares_round {run : Run σ} (hrun : run.Spares f) : (run.round sink).Spares f := by
  unfold round
  split
  · exact hrun
  · exact hrun

/-- **Over a schedule** the two numbers differ by what is missed in its rounds. -/
theorem accounts_schedule (hsink : sink.Counts accepted) (schedule : List RunEvent) {run : Run σ}
    (hrun : run.Spares accepted) :
    Accounts accepted run (schedule.foldl (step sink) run)
      ((run.rounds sink schedule).map (uncounted sink accepted)).sum := by
  induction schedule generalizing run with
  | nil => rfl
  | cons event rest ih =>
      cases event with
      | round => exact (accounts_round hsink run).trans (ih (spares_round hrun))
      | request world coord =>
          obtain ⟨hspares, hsame, hcommitted⟩ := spares_request hrun world coord
          have hrest := ih hspares
          unfold Accounts at hrest ⊢
          rw [hsame, hcommitted] at hrest
          exact hrest

/-- Reporting worlds takes nothing over and counts nothing. -/
theorem finishWorlds_frame (worlds : List (String × WorldSpec)) (run : Run σ) :
    (run.finishWorlds worlds).2.site.host = run.site.host ∧
      (run.finishWorlds worlds).2.committed = run.committed := by
  induction worlds generalizing run with
  | nil => exact ⟨rfl, rfl⟩
  | cons entry rest ih =>
      obtain ⟨world, spec⟩ := entry
      unfold finishWorlds
      cases hfirst : run.finishWorld world spec with
      | error e => exact ih run
      | ok answer =>
          obtain ⟨summary, -, hsummary⟩ := exists_of_bind_eq_ok hfirst
          obtain ⟨line, -, hanswer⟩ := exists_of_bind_eq_ok hsummary
          cases hanswer
          exact ih _

/-- At the end of a run, the two numbers differ by what is missed in the last round. -/
theorem accounts_finish (hsink : sink.Counts accepted) (config : ServerConfig) (run : Run σ) :
    Accounts accepted run (run.finish sink config).2
      ((run.lastRound config).map (uncounted sink accepted)).sum := by
  obtain ⟨hhost, hcommitted⟩ := run.finishWorlds_frame config.worlds.toList
  have htallies := Site.flushAll_tallies hsink
  unfold Accounts lastRound finish
  rcases hworlds : run.finishWorlds config.worlds.toList with ⟨worlds | worlds, run'⟩
  · rw [hworlds] at hhost hcommitted
    dsimp only at hhost hcommitted ⊢
    rw [hhost, hcommitted]
    rfl
  · rw [hworlds] at hhost hcommitted
    unfold uncounted
    dsimp only at hhost hcommitted
    cases hflush : Site.flushAll sink run'.site with
    | ok count site =>
        have hok := htallies.of_ok hflush
        simp only [id_eq, hhost, hflush, List.map_cons, List.map_nil, List.sum_singleton] at hok ⊢
        omega
    | error e site =>
        have hle := htallies.le.of_error hflush
        simp only [hhost, hflush, List.map_cons, List.map_nil, List.sum_singleton] at hle ⊢
        omega

/-- A run that succeeds reports the number that it counted. -/
theorem committed_of_finish {config : ServerConfig} {run : Run σ} {summary : RunSummary}
    (h : (run.finish sink config).1 = .ok summary) :
    summary.committed = (run.finish sink config).2.committed := by
  unfold finish at h ⊢
  rcases hworlds : run.finishWorlds config.worlds.toList with ⟨e | worlds, run'⟩
  · simp only [hworlds] at h
    cases h
  · simp only [hworlds] at h ⊢
    cases hflush : Site.flushAll sink run'.site with
    | ok count site =>
        simp only [hflush] at h ⊢
        cases h
        rfl
    | error e site =>
        simp only [hflush] at h
        cases h

/-- A round misses nothing exactly if it succeeds, or fails before it takes anything over. -/
theorem uncounted_eq_zero_iff (hsink : sink.Counts accepted) (site : Site LogLine σ) :
    uncounted sink accepted site = 0 ↔ ∀ e site', Site.flushAll sink site = .error e site' →
      accepted site'.host = accepted site.host := by
  unfold uncounted
  cases hflush : Site.flushAll sink site with
  | ok count site' => exact iff_of_true rfl nofun
  | error e site' =>
      have hle := (Site.flushAll_tallies hsink).le.of_error hflush
      dsimp only at hle ⊢
      constructor
      · intro hzero e' site'' heq
        cases heq
        omega
      · intro hsame
        rw [hsame e site' rfl, Nat.sub_self]

/-- Rounds miss nothing together exactly if none of them takes anything over before it fails. -/
theorem sum_uncounted_eq_zero_iff (hsink : sink.Counts accepted) (held : List (Site LogLine σ)) :
    (held.map (uncounted sink accepted)).sum = 0 ↔ ∀ site ∈ held, ∀ e site',
      Site.flushAll sink site = .error e site' → accepted site'.host = accepted site.host := by
  rw [List.sum_eq_zero_iff_forall_eq_nat]
  simp only [List.forall_mem_map, uncounted_eq_zero_iff hsink]

/-- **Over a schedule and the end of a run** the two numbers differ by what is missed in the rounds
that are held. -/
theorem accounts_run (hsink : sink.Counts accepted) {run : Run σ} (hrun : run.Spares accepted)
    (config : ServerConfig) (schedule : List RunEvent) :
    let reached := schedule.foldl (step sink) run
    let held := run.rounds sink schedule ++ reached.lastRound config
    Accounts accepted run (reached.finish sink config).2
      (held.map (uncounted sink accepted)).sum := by
  intro reached held
  rw [List.map_append, List.sum_append]
  exact (accounts_schedule hsink schedule hrun).trans (accounts_finish hsink config reached)

/-- **What a run counts as committed.** From any run in progress on, with any queues and by any
schedule, the receiver takes over what the run counts and what is taken over in the rounds that
fail, the last one included. So the two are the same exactly if no round takes anything over before
it fails. And what a run counts is what it reports. -/
theorem committed_accounts (hsink : sink.Counts accepted) {run : Run σ} (hrun : run.Spares accepted)
    (config : ServerConfig) (schedule : List RunEvent) :
    let reached := schedule.foldl (step sink) run
    let ended := reached.finish sink config
    let held := run.rounds sink schedule ++ reached.lastRound config
    Accounts accepted run ended.2 (held.map (uncounted sink accepted)).sum ∧
      (Accounts accepted run ended.2 0 ↔ ∀ site ∈ held, ∀ e site',
        Site.flushAll sink site = .error e site' → accepted site'.host = accepted site.host) ∧
      ∀ summary, ended.1 = .ok summary → summary.committed = ended.2.committed := by
  intro reached ended held
  have hall : Accounts accepted run ended.2 (held.map (uncounted sink accepted)).sum :=
    accounts_run hsink hrun config schedule
  refine ⟨hall, ?_, fun summary => committed_of_finish⟩
  rw [← sum_uncounted_eq_zero_iff hsink]
  unfold Accounts at hall ⊢
  omega

/-- A receiver that refuses the second chunk that it is offered, beside a count. -/
def balky : Sink LogLine (Nat × Nat) := Sink.counting
  { commit := fun _ _ h =>
      if h.host = 1 then .error (.error (.sink "disk full")) { h with host := h.host + 1 }
      else .ok () { h with host := h.host + 1 }
    complete := Hosted.addLine }

/-- A run with two pending chunks in a world. -/
def laden : Run (Nat × Nat) where
  site :=
    { queues := ({} : Std.TreeMap String (Queue LogLine)).insert "plotworld"
        (((Queue.new "plotworld").forChunk ⟨0, 0⟩).2.forChunk ⟨1, 0⟩).2
      host := (0, 0) }
  generators := ∅

theorem spares_laden : laden.Spares Prod.snd := fun _ _ hg => nomatch hg

/-- **A count that is too small.** The receiver takes over the first of two chunks and refuses the
second, which fails the round. The last round hands over the second chunk, and one is reported. -/
theorem committed_too_few :
    ∃ summary, (([.round].foldl (step balky) laden).finish balky { worlds := ∅ }).1 = .ok summary ∧
      summary.committed = 1 ∧
      (([.round].foldl (step balky) laden).finish balky { worlds := ∅ }).2.site.host.2 = 2 :=
  ⟨_, rfl, rfl, rfl⟩

theorem committed_accounts_balky :
    balky.Counts Prod.snd ∧ laden.Spares Prod.snd ∧
      Accounts Prod.snd laden (([.round].foldl (step balky) laden).finish balky { worlds := ∅ }).2
        ((laden.rounds balky [.round] ++
          ([.round].foldl (step balky) laden).lastRound { worlds := ∅ }).map
            (uncounted balky Prod.snd)).sum :=
  ⟨Sink.counts_counting _, spares_laden,
    (committed_accounts (Sink.counts_counting _) spares_laden { worlds := ∅ } [.round]).1⟩

/-! ### Runs of a configuration -/

/-- **What a run of a configuration reports as committed.** Nothing is counted when the run begins,
and its generators leave the receiver alone. So a run that succeeds, by any schedule, reports what
its receiver took over since, less what was taken over in rounds that failed. It reports all of it
exactly if no round takes anything over before it fails. -/
theorem reported_of_start (hsink : sink.Counts accepted) {config : ServerConfig} {host : σ}
    {run : Run σ} (h : start config host = .ok run) (schedule : List RunEvent)
    {summary : RunSummary} (hresult : (bySchedule sink config schedule host).result = .ok summary) :
    let begun := run.announced config
    let held := begun.rounds sink schedule ++ (schedule.foldl (step sink) begun).lastRound config
    let taken := accepted (bySchedule sink config schedule host).host
    taken = accepted host + summary.committed + (held.map (uncounted sink accepted)).sum ∧
      (taken = accepted host + summary.committed ↔ ∀ site ∈ held, ∀ e site',
        Site.flushAll sink site = .error e site' → accepted site'.host = accepted site.host) := by
  intro begun held taken
  have hopened := opened_of_start h
  have hspares : begun.Spares accepted := (spares_of_start h : run.Spares accepted)
  have hhost : begun.site.host = host := hopened.host
  have hnone : begun.committed = 0 := hopened.committed
  have hreport := bySchedule_of_start sink h schedule
  rw [hreport] at hresult
  have htaken : taken =
      accepted ((schedule.foldl (step sink) begun).finish sink config).2.site.host :=
    congrArg (fun report => accepted report.host) hreport
  have hcounted : summary.committed =
      ((schedule.foldl (step sink) begun).finish sink config).2.committed :=
    committed_of_finish hresult
  have hall : taken =
      accepted host + summary.committed + (held.map (uncounted sink accepted)).sum := by
    have haccounts : Accounts accepted begun _ (held.map (uncounted sink accepted)).sum :=
      accounts_run hsink hspares config schedule
    unfold Accounts at haccounts
    rw [hhost, hnone] at haccounts
    omega
  refine ⟨hall, ?_⟩
  rw [← sum_uncounted_eq_zero_iff hsink]
  omega

end Run

end Cadastre
