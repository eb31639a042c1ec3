import Cadastre.Proofs.Chunk.History
import Cadastre.Proofs.Queue.Views
import Mathlib.Data.List.Perm.Basic
import Mathlib.Logic.Relation
/-!
# Cadastre.Proofs.Queue.Daybook

**A flush cut into its steps**, with any other use of the queue between two of them.

A flush takes what is pending, hands the chunks over one by one, and then takes the completions and
runs them. Between two steps anybody may ask for a chunk, write through any view, take a chunk out
or add a completion: other threads, but also the receiver while a chunk is in its hands, and a
completion while it runs. The receiver may refuse a chunk, and it or a completion may be cut off.
One thread at a time flushes.

A `Daybook` goes along and notes what became of every buffer. Two things hold in whatever state the
steps lead to (`Daybook.Sound`): every view that was made is in one place of the book, and what was
accepted, what is on its way and what is pending of one chunk follow each other by age.
-/

namespace Cadastre

variable {κ : Type}

/-! ### Uses of a queue -/

/-- An edit of a chunk that keeps it well-formed, as everything does that is made of writes. -/
structure ChunkEdit where
  run : Edit Chunk Unit
  valid_outcome : ∀ c : Chunk, c.Valid → (run.outcome c).2.Valid

namespace ChunkEdit

/-- What an edit leaves of a chunk, whether it comes to its end or not. -/
def apply (e : ChunkEdit) (c : Chunk) : Chunk := (e.run.outcome c).2

/-- Whether an edit of a chunk comes to its end, with a refusal or without. It does not if it is cut
off. -/
def completes (e : ChunkEdit) (c : Chunk) : Bool :=
  match (e.run.outcome c).1 with
  | .error (.abort _) => false
  | _ => true

/-- What edits leave of a chunk, one after the other. -/
def applyAll (es : List ChunkEdit) (c : Chunk) : Chunk := es.foldl (fun c e => e.apply c) c

@[simp] theorem applyAll_nil (c : Chunk) : applyAll [] c = c := rfl

@[simp] theorem applyAll_concat (es : List ChunkEdit) (e : ChunkEdit) (c : Chunk) :
    applyAll (es ++ [e]) c = e.apply (applyAll es c) := by
  simp [applyAll]

/-- The edit that puts a chunk in place of another. -/
def replace (k : Chunk) (hk : k.Valid) : ChunkEdit := ⟨set k, fun _ _ => hk⟩

/-- An edit that is cut off when all but its end is done. -/
def cutOff (e : ChunkEdit) : ChunkEdit where
  run c := .error (.abort (.raised "edit exploded")) (e.apply c)
  valid_outcome := e.valid_outcome

@[simp] theorem completes_cutOff (e : ChunkEdit) (c : Chunk) : e.cutOff.completes c = false := rfl

end ChunkEdit

/-- What anybody may do with a queue while a flush is under way. Working with a chunk is asking for
it and then writing. A write through a view of a buffer that was never made is nothing. -/
inductive Use (κ : Type)
  | forChunk (coord : ChunkCoord)
  | write (v : View) (edit : ChunkEdit)
  | take (coord : ChunkCoord)
  | addCompletion (completion : κ)

namespace Use

/-- The queue after a use of it. -/
def after (q : Queue κ) : Use κ → Queue κ
  | forChunk coord => (q.forChunk coord).2
  | write v edit => q.store v (edit.apply (q.content v))
  | take coord => (q.take coord).2
  | addCompletion completion => q.addCompletion completion

/-- The views of the buffers that a use makes. -/
def opens (q : Queue κ) : Use κ → List View
  | forChunk coord => q.opened coord
  | _ => []

/-- The views of the chunks that a use takes out. -/
def takes (q : Queue κ) : Use κ → List View
  | take coord => (q.pendingView? coord).toList
  | _ => []

/-- The writes of a use, each with its buffer. -/
def writes (q : Queue κ) : Use κ → List (BufferId × ChunkEdit)
  | write v edit => if v.buffer < q.buffers.size then [(v.buffer, edit)] else []
  | _ => []

/-- The completions that a use adds. -/
def adds : Use κ → List κ
  | addCompletion completion => [completion]
  | _ => []

/-- No use hands anything over. -/
theorem shift (q : Queue κ) (u : Use κ) :
    q.Shift (u.after q) (u.opens q) (u.takes q) u.adds := by
  cases u with
  | forChunk coord => exact q.shift_forChunk coord
  | write v edit => exact q.shift_self.store v _
  | take coord => exact q.shift_take coord
  | addCompletion completion => exact q.shift_addCompletion completion

end Use

/-! ### The steps of a flush -/

/-- Where a flush stands. -/
inductive Stage (κ : Type)
  /-- Nobody flushes. -/
  | idle
  /-- Chunks were taken, and these are still to be handed over. -/
  | handing (rest : List View)
  /-- The receiver has the content of a view in its hands. -/
  | offering (v : View) (chunk : Chunk) (rest : List View)
  /-- Completions were taken, and these are still to run. -/
  | completing (rest : List κ)

namespace Stage

/-- The views that a flush took and that are not handed over yet. -/
def inFlight : Stage κ → List View
  | handing rest => rest
  | offering v _ rest => v :: rest
  | _ => []

@[simp] theorem inFlight_idle : (idle : Stage κ).inFlight = [] := rfl

@[simp] theorem inFlight_handing (rest : List View) :
    (handing rest : Stage κ).inFlight = rest := rfl

@[simp] theorem inFlight_offering (v : View) (chunk : Chunk) (rest : List View) :
    (offering v chunk rest : Stage κ).inFlight = v :: rest := rfl

@[simp] theorem inFlight_completing (rest : List κ) : (completing rest).inFlight = [] := rfl

/-- Whether a flush is handing chunks over. -/
def isHanding : Stage κ → Bool
  | handing _ | offering _ _ _ => true
  | _ => false

/-- Whether the receiver or a completion is at work, which may be cut off. -/
def isForeign : Stage κ → Bool
  | offering _ _ _ | completing _ => true
  | _ => false

/-- The completions that are still to run. -/
def completions : Stage κ → List κ
  | completing rest => rest
  | _ => []

end Stage

/-- What a completion waits for: the chunks that were pending or on their way when it was added, and
how many flushes had begun by then. -/
structure Promise (κ : Type) where
  completion : κ
  owed : List View
  round : Nat

/-- A queue, the stage of its flush, and what became of its buffers and completions. -/
structure Daybook (κ : Type) where
  queue : Queue κ
  stage : Stage κ := .idle
  /-- The number of flushes that began. -/
  rounds : Nat := 0
  /-- What the last flush took. -/
  batch : List View := []
  made : List View := []
  accepted : List (View × Chunk) := []
  taken : List View := []
  /-- What was not put back because a newer buffer of the chunk was pending. -/
  replaced : List View := []
  /-- What was on its way when a flush was cut off. -/
  lost : List View := []
  writes : List (BufferId × ChunkEdit) := []
  /-- The promises of the completions that wait in the queue. -/
  waiting : List (Promise κ) := []
  /-- The promises of the completions that a flush took and has still to run. -/
  due : List (Promise κ) := []

namespace Daybook

/-- The daybook of a new queue. -/
def new (world : String) : Daybook κ := { queue := .new world }

/-- What is on its way or pending. -/
def outstanding (d : Daybook κ) : List View := d.stage.inFlight ++ d.queue.pendingViews

/-- Somebody uses the queue. -/
def use (d : Daybook κ) (u : Use κ) : Daybook κ :=
  { d with
    queue := u.after d.queue
    made := d.made ++ u.opens d.queue
    taken := d.taken ++ u.takes d.queue
    writes := d.writes ++ u.writes d.queue
    waiting := d.waiting ++ u.adds.map fun completion => ⟨completion, d.outstanding, d.rounds⟩ }

/-- A flush begins and takes what is pending. -/
def start (d : Daybook κ) : Daybook κ :=
  { d with
    queue := d.queue.takePending.2
    stage := .handing d.queue.pendingViews
    rounds := d.rounds + 1
    batch := d.queue.pendingViews }

/-- The receiver gets a chunk as it is at this moment. -/
def offer (d : Daybook κ) (v : View) (rest : List View) : Daybook κ :=
  { d with stage := .offering v (d.queue.content v) rest }

/-- The receiver accepts the chunk. -/
def accept (d : Daybook κ) (v : View) (chunk : Chunk) (rest : List View) : Daybook κ :=
  { d with stage := .handing rest, accepted := d.accepted ++ [(v, chunk)] }

/-- The receiver refuses the chunk. It and the rest are put back, and the flush is over. -/
def refuse (d : Daybook κ) (v : View) (rest : List View) : Daybook κ :=
  { d with
    queue := d.queue.putBack (v :: rest)
    stage := .idle
    replaced := d.replaced ++ (v :: rest).filter fun w => (d.queue.pendingView? w.coord).isSome }

/-- All chunks were accepted, and the completions are taken. -/
def release (d : Daybook κ) : Daybook κ :=
  { d with
    queue := d.queue.takeCompletions.2
    stage := .completing d.queue.takeCompletions.1
    waiting := []
    due := d.waiting }

/-- The next completion runs. -/
def complete (d : Daybook κ) (rest : List κ) : Daybook κ :=
  { d with stage := .completing rest, due := d.due.tail }

/-- All completions ran, and the flush is over. -/
def finish (d : Daybook κ) : Daybook κ := { d with stage := .idle }

/-- The receiver or a completion is cut off, and the flush with it. Nothing is put back. -/
def abort (d : Daybook κ) : Daybook κ :=
  { d with stage := .idle, lost := d.lost ++ d.stage.inFlight, due := [] }

/-- A step of a flush. -/
inductive FlushStep : Daybook κ → Daybook κ → Prop
  | start {d : Daybook κ} (h : d.stage = .idle) : FlushStep d d.start
  | offer {d : Daybook κ} {v : View} {rest : List View} (h : d.stage = .handing (v :: rest)) :
      FlushStep d (d.offer v rest)
  | accept {d : Daybook κ} {v : View} {chunk : Chunk} {rest : List View}
      (h : d.stage = .offering v chunk rest) : FlushStep d (d.accept v chunk rest)
  | refuse {d : Daybook κ} {v : View} {chunk : Chunk} {rest : List View}
      (h : d.stage = .offering v chunk rest) : FlushStep d (d.refuse v rest)
  | release {d : Daybook κ} (h : d.stage = .handing []) : FlushStep d d.release
  | complete {d : Daybook κ} {completion : κ} {rest : List κ}
      (h : d.stage = .completing (completion :: rest)) : FlushStep d (d.complete rest)
  | finish {d : Daybook κ} (h : d.stage = .completing []) : FlushStep d d.finish

/-- A step of a flush makes and takes out nothing, and leaves what is in the buffers. -/
theorem FlushStep.keeps {d d' : Daybook κ} (h : FlushStep d d') :
    d'.queue.buffers = d.queue.buffers ∧ d'.made = d.made ∧ d'.writes = d.writes ∧
      d'.taken = d.taken ∧ d'.lost = d.lost := by
  cases h with
  | refuse _ => exact ⟨(d.queue.putBack_frame _).2.1, rfl, rfl, rfl, rfl⟩
  | _ => exact ⟨rfl, rfl, rfl, rfl, rfl⟩

/-- A step of a queue at work: somebody uses it, a flush goes on, or a flush is cut off. -/
inductive Step : Daybook κ → Daybook κ → Prop
  | use (d : Daybook κ) (u : Use κ) : Step d (d.use u)
  | flush {d d' : Daybook κ} (h : FlushStep d d') : Step d d'
  | abort {d : Daybook κ} (h : d.stage.isForeign = true) : Step d d.abort

/-- Whether the queue of a world can come to a state, by any steps from a new queue. -/
def Reachable (world : String) (d : Daybook κ) : Prop := Relation.ReflTransGen Step (.new world) d

end Daybook

end Cadastre
