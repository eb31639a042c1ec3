import Mathlib.Logic.Function.Basic
import Cadastre.Proofs.Queue.Writes
/-!
# Cadastre.Proofs.Queue.Calls

**Many calls that edit chunks, one thread that flushes.**

A call asks for the buffer of its chunk, waits for the lock of that buffer, and looks whether the
buffer is still pending. If so it edits it, otherwise it begins again. It holds the lock while it
edits; a flush takes the lock only to copy the buffer for the receiver. So a flush may take the
buffer of a chunk at any moment, but it waits with handing it over as long as somebody edits it.

Design points:

* A step is a section that nobody else can break into: asking for a chunk (`look`), finding the
  buffer pending with its lock in hand (`enter`) or not (`retry`), and letting go of it (`finish`).
* What an edit does shows when it lets go of the lock, so all of it is done in that step. It may be
  cut off; what it did until then stays.
* `order` notes each edit at the moment at which it found its buffer pending.
-/

namespace Cadastre

variable {κ : Type}

/-- Where a call stands that edits a chunk. -/
inductive Standing
  /-- It has still to ask for the chunk. -/
  | waiting
  /-- It has a view, but not the lock. -/
  | found (v : View)
  /-- It holds the lock of a buffer that was pending, and edits it. -/
  | editing (v : View)
  | done (v : View)
  deriving DecidableEq

namespace Standing

/-- The view that a call has. -/
def view? : Standing → Option View
  | waiting => none
  | found v | editing v | done v => some v

/-- Whether a call has still to find its buffer pending. -/
def isUnderway : Standing → Bool
  | waiting | found _ => true
  | _ => false

def isDone : Standing → Bool
  | done _ => true
  | _ => false

end Standing

/-- A call that edits a chunk. -/
structure Call where
  coord : ChunkCoord
  edit : ChunkEdit
  standing : Standing := .waiting

/-- A queue at work, the calls that were made on it, and the edits of its buffers in the order in
which they began. -/
structure Crew (κ : Type) where
  book : Daybook κ
  calls : Nat → Option Call := fun _ => none
  order : List (View × ChunkEdit) := []

namespace Crew

/-- Nobody is at work on a new queue. -/
def new (world : String) : Crew κ := { book := .new world }

/-- Whether nobody holds the lock of a buffer. -/
def Free (c : Crew κ) (v : View) : Prop :=
  ∀ i call, c.calls i = some call → call.standing ≠ .editing v

/-- The edits of a buffer, in order. -/
def entered (c : Crew κ) (v : View) : List ChunkEdit := (c.order.filter (·.1 = v)).map Prod.snd

/-- Whether a call has still to edit a chunk. -/
def Underway (c : Crew κ) (coord : ChunkCoord) : Prop :=
  ∃ i call, c.calls i = some call ∧ call.coord = coord ∧ call.standing.isUnderway = true

/-- Whether a buffer holds the result of an edit that came to its end. -/
def Whole (c : Crew κ) (v : View) : Prop :=
  ∃ before e after, c.entered v = before ++ e :: after ∧
    e.completes (ChunkEdit.applyAll before (.empty v.coord)) = true

/-! ### Steps -/

/-- A call has come to another standing. -/
def turn (c : Crew κ) (i : Nat) (call : Call) : Crew κ :=
  { c with calls := Function.update c.calls i (some call) }

/-- A call asks for its chunk. -/
def look (c : Crew κ) (i : Nat) (coord : ChunkCoord) (edit : ChunkEdit) : Crew κ :=
  { c.turn i ⟨coord, edit, .found (c.book.queue.forChunk coord).1⟩ with
    book := c.book.use (.forChunk coord) }

/-- A call has the lock of its buffer and begins to edit. -/
def enter (c : Crew κ) (i : Nat) (coord : ChunkCoord) (edit : ChunkEdit) (v : View) : Crew κ :=
  { c.turn i ⟨coord, edit, .editing v⟩ with order := c.order ++ [(v, edit)] }

/-- A call lets go of the lock. -/
def finish (c : Crew κ) (i : Nat) (coord : ChunkCoord) (edit : ChunkEdit) (v : View) : Crew κ :=
  { c.turn i ⟨coord, edit, .done v⟩ with book := c.book.use (.write v edit) }

/-- A step of the calls or of the flush. -/
inductive Step : Crew κ → Crew κ → Prop
  | call (c : Crew κ) {i : Nat} (coord : ChunkCoord) (edit : ChunkEdit) (h : c.calls i = none) :
      Step c (c.turn i ⟨coord, edit, .waiting⟩)
  | look {c : Crew κ} {i : Nat} {coord : ChunkCoord} {edit : ChunkEdit}
      (h : c.calls i = some ⟨coord, edit, .waiting⟩) : Step c (c.look i coord edit)
  | enter {c : Crew κ} {i : Nat} {coord : ChunkCoord} {edit : ChunkEdit} {v : View}
      (h : c.calls i = some ⟨coord, edit, .found v⟩) (hfree : c.Free v)
      (hpending : c.book.queue.isPending v = true) : Step c (c.enter i coord edit v)
  | retry {c : Crew κ} {i : Nat} {coord : ChunkCoord} {edit : ChunkEdit} {v : View}
      (h : c.calls i = some ⟨coord, edit, .found v⟩) (hfree : c.Free v)
      (hpending : c.book.queue.isPending v = false) : Step c (c.turn i ⟨coord, edit, .waiting⟩)
  | finish {c : Crew κ} {i : Nat} {coord : ChunkCoord} {edit : ChunkEdit} {v : View}
      (h : c.calls i = some ⟨coord, edit, .editing v⟩) : Step c (c.finish i coord edit v)
  | flush {c : Crew κ} {book : Daybook κ} (h : c.book.FlushStep book)
      (hfree : ∀ v rest, c.book.stage = .handing (v :: rest) → c.Free v) :
      Step c { c with book }

/-- Whether the calls and the flush can come to a state, by any steps from a new queue. -/
def Reachable (world : String) (c : Crew κ) : Prop := Relation.ReflTransGen Step (.new world) c

variable {world : String} {c c' : Crew κ}

/-- What holds of the calls that stay as they are, and of the one that turns, holds of all. -/
theorem forall_turn {i : Nat} {call : Call} {P : Nat → Call → Prop} (hi : P i call)
    (h : ∀ j other, j ≠ i → c.calls j = some other → P j other) :
    ∀ j other, (c.turn i call).calls j = some other → P j other := by
  intro j other hj
  by_cases hsame : j = i
  · simp [turn, hsame] at hj
    simpa [hsame, ← hj] using hi
  · simp [turn, hsame] at hj
    exact h j other hsame hj

/-- What holds of a call holds of whatever call goes by its number. -/
theorem forall_call {i : Nat} {call : Call} {P : Call → Prop} (hi : c.calls i = some call)
    (h : P call) : ∀ old, c.calls i = some old → P old := by
  intro old hold
  rw [hi] at hold
  cases hold
  exact h

theorem free_new (v : View) : (new world : Crew κ).Free v := by
  simp [Free, new]

theorem Free.turn {i : Nat} {call : Call} {v : View} (h : c.Free v)
    (hcall : call.standing ≠ .editing v) : (c.turn i call).Free v :=
  forall_turn hcall fun j other _ => h j other

theorem Free.look {i : Nat} {coord : ChunkCoord} {edit : ChunkEdit} {v : View} (h : c.Free v) :
    (c.look i coord edit).Free v :=
  Free.turn (c := c) h (by simp)

theorem free_of_turn {i : Nat} {call : Call} {v : View} (h : (c.turn i call).Free v)
    (hi : ∀ old, c.calls i = some old → old.standing ≠ .editing v) : c.Free v := by
  intro j other hj
  by_cases hsame : j = i
  · subst hsame
    exact hi other hj
  · exact h j other (by simpa [turn, hsame] using hj)

/-- A step of the calls or of the flush is a use of the queue, a step of the flush, or neither. -/
theorem Step.book (h : Step c c') : c'.book = c.book ∨ c.book.Step c'.book := by
  cases h with
  | call _ _ _ => exact .inl rfl
  | look _ => exact .inr (.use _ _)
  | enter _ _ _ => exact .inl rfl
  | retry _ _ _ => exact .inl rfl
  | finish _ => exact .inr (.use _ _)
  | flush h _ => exact .inr (.flush h)

/-- A step of the calls does not concern the flush. -/
theorem Step.stage (h : Step c c') :
    (c'.book.stage = c.book.stage ∧ c'.book.accepted = c.book.accepted) ∨
      c.book.FlushStep c'.book := by
  cases h with
  | flush h _ => exact .inr h
  | _ => exact .inl ⟨rfl, rfl⟩

theorem Reachable.book (h : Reachable world c) : c.book.Reachable world := by
  induction h with
  | refl => exact .refl
  | tail _ hstep ih =>
      rcases hstep.book with heq | hbook
      · rwa [heq]
      · exact ih.tail hbook

/-! ### A call on its own -/

/-- A call that nobody interrupts. -/
def solo (c : Crew κ) (i : Nat) (coord : ChunkCoord) (edit : ChunkEdit) : Crew κ :=
  let v := (c.book.queue.forChunk coord).1
  (((c.turn i ⟨coord, edit, .waiting⟩).look i coord edit).enter i coord edit v).finish i coord edit v

theorem Free.solo {i : Nat} {coord : ChunkCoord} {edit : ChunkEdit} {v : View} (h : c.Free v) :
    (c.solo i coord edit).Free v := by
  refine forall_turn (by simp) fun j other hne hj => h j other ?_
  simpa [Crew.enter, Crew.look, Crew.turn, hne] using hj

/-- A call can run on its own if nobody edits the buffer of its chunk. -/
theorem Reachable.solo (h : Reachable world c) {i : Nat} (hi : c.calls i = none)
    (coord : ChunkCoord) (edit : ChunkEdit) (hfree : c.Free (c.book.queue.forChunk coord).1) :
    Reachable world (c.solo i coord edit) := by
  have hwaiting : (c.turn i ⟨coord, edit, .waiting⟩).Free _ := hfree.turn (by simp)
  have hpending := Queue.isPending_iff.mpr (c.book.queue.forChunk_mem_pendingViews coord)
  have hcall := h.tail (Step.call c coord edit hi)
  have hlook := hcall.tail (Step.look (i := i) (Function.update_self ..))
  have henter := hlook.tail (Step.enter (i := i) (Function.update_self ..) hwaiting.look hpending)
  exact henter.tail (Step.finish (Function.update_self ..))

/-! ### Views and their chunks -/

/-- A crew whose calls have views of their chunks, and in which nothing was taken out or lost. -/
structure Placed (c : Crew κ) : Prop where
  taken : c.book.taken = []
  lost : c.book.lost = []
  views : ∀ i call, c.calls i = some call → ∀ v ∈ call.standing.view?,
    v ∈ c.book.made ∧ v.coord = call.coord
  order : ∀ e ∈ c.order, e.1 ∈ c.book.made

/-- The view that a call is given was made. -/
theorem mem_made_forChunk {d : Daybook κ} (hd : d.Sound) (coord : ChunkCoord) :
    (d.queue.forChunk coord).1 ∈ (d.use (.forChunk coord)).made := by
  refine (hd.use (.forChunk coord)).mem_made.mpr (.inr (.inr (.inr ?_)))
  exact List.mem_append_right _ (d.queue.forChunk_mem_pendingViews coord)

theorem Placed.step (hd : c.book.Sound) (h : c.Placed) (hstep : Step c c') : c'.Placed := by
  obtain ⟨htaken, hlost, hviews, horder⟩ := h
  cases hstep with
  | call coord edit _ =>
      refine ⟨htaken, hlost, ?_, horder⟩
      exact forall_turn (by simp [Standing.view?]) fun j other _ => hviews j other
  | @look i coord edit hi =>
      have hmade : ∀ v ∈ c.book.made, v ∈ (c.book.use (.forChunk coord)).made :=
        fun v hv => List.mem_append_left _ hv
      constructor
      case taken => simp [look, Daybook.use, Use.takes, htaken]
      case lost => exact hlost
      case views =>
        refine forall_turn ?_ fun j other _ hj v hv => (hviews j other hj v hv).imp_left (hmade v)
        intro v hv
        cases hv
        exact ⟨mem_made_forChunk hd coord, c.book.queue.coord_forChunk coord⟩
      case order => exact fun e he => hmade e.1 (horder e he)
  | @enter i coord edit v hi _ _ =>
      have hv := hviews i _ hi v rfl
      constructor
      case taken => exact htaken
      case lost => exact hlost
      case views =>
        refine forall_turn ?_ fun j other _ => hviews j other
        intro w hw
        cases hw
        exact hv
      case order =>
        intro e he
        rcases List.mem_append.mp he with hold | hnew
        · exact horder e hold
        · rw [List.mem_singleton.mp hnew]
          exact hv.1
  | retry _ _ _ =>
      refine ⟨htaken, hlost, ?_, horder⟩
      exact forall_turn (by simp [Standing.view?]) fun j other _ => hviews j other
  | @finish i coord edit v hi =>
      have hmade : (c.finish i coord edit v).book.made = c.book.made := List.append_nil _
      constructor
      case taken => simp [finish, Daybook.use, Use.takes, htaken]
      case lost => exact hlost
      case views =>
        rw [hmade]
        refine forall_turn ?_ fun j other _ => hviews j other
        intro w hw
        cases hw
        exact hviews i _ hi v rfl
      case order =>
        rw [hmade]
        exact horder
  | @flush book hflush _ =>
      obtain ⟨-, hmade, -, htaken', hlost'⟩ := hflush.keeps
      constructor
      case taken => exact htaken'.trans htaken
      case lost => exact hlost'.trans hlost
      case views => simpa [hmade] using hviews
      case order => simpa [hmade] using horder

theorem Reachable.placed (h : Reachable world c) : c.Placed := by
  induction h with
  | refl => constructor <;> simp [new, Daybook.new]
  | tail hsteps hstep ih => exact ih.step (Reachable.book hsteps).sound hstep

end Crew

end Cadastre
