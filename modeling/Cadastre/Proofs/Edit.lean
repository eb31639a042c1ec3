import Cadastre.Failure
/-!
# Cadastre.Proofs.Edit

**Edits that come to their end.** `Edit.Ends` says of an edit and the state it starts from that it
does not fail, and what holds of its answer and of the state it leaves. There is one rule for each
way in which edits are put together. A loop is followed by induction on what is still to be done.

**Edits that may fail.** `Edit.Leads` says of an edit how the state it leaves relates to the one it
starts from, whichever way it ends. `Edit.Keeps` is the case where some part of the state stays.

**Edits of a larger state.** `Edit.Mirrors` says of an edit that, in what a view shows of its
states, it is an edit of a smaller one, whichever way it ends.
-/

namespace Cadastre.Edit

variable {σ τ α β : Type}

/-- From a state an edit comes to its end, with an answer and a state of which something holds. -/
def Ends (edit : Edit σ α) (s : σ) (Q : α → σ → Prop) : Prop :=
  ∃ a s', edit s = .ok a s' ∧ Q a s'

theorem ends_pure {a : α} {s : σ} {Q : α → σ → Prop} (h : Q a s) :
    Ends (pure a) s Q :=
  ⟨a, s, rfl, h⟩

theorem Ends.mono {edit : Edit σ α} {s : σ} {Q Q' : α → σ → Prop} (h : edit.Ends s Q)
    (hQ : ∀ a s', Q a s' → Q' a s') : edit.Ends s Q' := by
  obtain ⟨a, s', hok, ha⟩ := h
  exact ⟨a, s', hok, hQ a s' ha⟩

theorem bind_of_ok {edit : Edit σ α} {f : α → Edit σ β} {s s' : σ} {a : α}
    (h : edit s = .ok a s') : (edit >>= f) s = f a s' := by
  show EStateM.bind edit f s = f a s'
  rw [EStateM.bind, h]

theorem bind_of_error {edit : Edit σ α} {f : α → Edit σ β} {s s' : σ} {e : Failure}
    (h : edit s = .error e s') : (edit >>= f) s = .error e s' := by
  show EStateM.bind edit f s = .error e s'
  rw [EStateM.bind, h]

theorem outcome_bind_of_ok {edit : Edit σ α} {f : α → Edit σ β} {s s' : σ} {a : α}
    (h : edit s = .ok a s') : (edit >>= f).outcome s = (f a).outcome s' := by
  rw [outcome, bind_of_ok h, outcome]

theorem outcome_bind_of_error {edit : Edit σ α} {f : α → Edit σ β} {s s' : σ} {e : Failure}
    (h : edit s = .error e s') : (edit >>= f).outcome s = (.error e, s') := by
  rw [outcome, bind_of_error h]

theorem outcome_eq_ok_iff {edit : Edit σ α} {s s' : σ} {a : α} :
    edit.outcome s = (.ok a, s') ↔ edit s = .ok a s' := by
  unfold outcome
  cases edit s <;> simp

theorem outcome_eq_error_iff {edit : Edit σ α} {s s' : σ} {e : Failure} :
    edit.outcome s = (.error e, s') ↔ edit s = .error e s' := by
  unfold outcome
  cases edit s <;> simp

theorem get_bind (f : σ → Edit σ β) (s : σ) : (get >>= f) s = f s s := rfl

theorem outcome_get_bind (f : σ → Edit σ β) (s : σ) :
    (get >>= f).outcome s = (f s).outcome s := rfl

theorem Ends.bind {edit : Edit σ α} {f : α → Edit σ β} {s : σ} {mid : α → σ → Prop}
    {Q : β → σ → Prop} (h : edit.Ends s mid)
    (hf : ∀ a s', mid a s' → (f a).Ends s' Q) : Ends (edit >>= f) s Q := by
  obtain ⟨a, s', hok, ha⟩ := h
  obtain ⟨b, s'', hok', hb⟩ := hf a s' ha
  exact ⟨b, s'', (bind_of_ok hok).trans hok', hb⟩

theorem modifyGet_eq (f : σ → α × σ) (s : σ) :
    (modifyGet f : Edit σ α) s = .ok (f s).1 (f s).2 := rfl

/-- Reading the state changes nothing. -/
theorem ends_get_bind {f : σ → Edit σ β} {s : σ} {Q : β → σ → Prop} (h : (f s).Ends s Q) :
    Ends (get >>= f) s Q := h

theorem ends_modify {f : σ → σ} {s : σ} {Q : Unit → σ → Prop} (h : Q () (f s)) :
    Ends (modify f) s Q :=
  ⟨(), f s, rfl, h⟩

/-- What succeeds in two steps succeeds in each of them. -/
theorem exists_of_bind_ok {edit : Edit σ α} {f : α → Edit σ β} {s s' : σ} {b : β}
    (h : (edit >>= f) s = .ok b s') : ∃ a s₁, edit s = .ok a s₁ ∧ f a s₁ = .ok b s' := by
  cases hedit : edit s with
  | ok a s₁ => exact ⟨a, s₁, rfl, (bind_of_ok hedit).symm.trans h⟩
  | error e s₁ => cases (bind_of_error hedit).symm.trans h

theorem liftM_ok_bind (a : α) (f : α → Edit σ β) :
    (liftM (Except.ok a : Except Failure α) >>= f) = f a := rfl

theorem liftM_error_bind (e : Failure) (f : α → Edit σ β) :
    (liftM (Except.error e : Except Failure α) >>= f) = throw e := rfl

/-- What begins with a computation and succeeds goes on with the computation's result. -/
theorem exists_of_liftM_bind_ok {x : Except Failure α} {f : α → Edit σ β} {s s' : σ} {b : β}
    (h : (liftM x >>= f) s = .ok b s') : ∃ a, x = .ok a ∧ f a s = .ok b s' := by
  cases x with
  | ok a => exact ⟨a, rfl, h⟩
  | error e => cases h

theorem forM_cons {β : Type} (f : β → Edit σ Unit) (x : β) (xs : List β) :
    (x :: xs).forM f = f x >>= fun _ => xs.forM f := rfl

theorem forM_concat {β : Type} (f : β → Edit σ Unit) (xs : List β) (x : β) :
    (xs ++ [x]).forM f = xs.forM f >>= fun _ => f x := by
  rw [List.forM_eq_forM, List.forM_append, List.forM_cons, List.forM_nil, bind_pure_unit]

/-- A loop that failed came to its end for the elements before the one at which it failed. -/
theorem exists_of_forM_error {β : Type} {f : β → Edit σ Unit} {xs : List β} {s s' : σ} {e : Failure}
    (h : xs.forM f s = .error e s') :
    ∃ before x after s₁, xs = before ++ x :: after ∧ before.forM f s = .ok () s₁ ∧
      f x s₁ = .error e s' := by
  induction xs generalizing s with
  | nil => cases h
  | cons x rest ih =>
      rw [forM_cons] at h
      cases hx : f x s with
      | error e' s₁ =>
          rw [bind_of_error hx] at h
          cases h
          exact ⟨[], x, rest, s, rfl, rfl, hx⟩
      | ok a s₁ =>
          rw [bind_of_ok hx] at h
          obtain ⟨before, y, after, s₂, rfl, hbefore, hy⟩ := ih h
          refine ⟨x :: before, y, after, s₂, rfl, ?_, hy⟩
          rw [forM_cons, bind_of_ok hx, hbefore]

/-! ### Edits that may fail -/

/-- Whether an edit leads from every state to one in a relation to it, whichever way it ends. -/
def Leads (edit : Edit σ α) (R : σ → σ → Prop) : Prop := ∀ s, R s (edit.outcome s).2

namespace Leads

variable {edit : Edit σ α} {R : σ → σ → Prop}

theorem of_ok (h : edit.Leads R) {s s' : σ} {a : α} (hok : edit s = .ok a s') : R s s' := by
  have hs := h s
  rwa [outcome, hok] at hs

theorem of_error (h : edit.Leads R) {s s' : σ} {e : Failure} (herror : edit s = .error e s') :
    R s s' := by
  have hs := h s
  rwa [outcome, herror] at hs

theorem of_pure (hrefl : ∀ s, R s s) (a : α) : (pure a : Edit σ α).Leads R := hrefl

theorem get_bind {f : σ → Edit σ β} (hf : ∀ s, (f s).Leads R) : (get >>= f).Leads R :=
  fun s => hf s s

theorem liftM_bind (hrefl : ∀ s, R s s) (x : Except Failure α) {f : α → Edit σ β}
    (hf : ∀ a, (f a).Leads R) : (liftM x >>= f).Leads R := by
  cases x with
  | ok a => exact hf a
  | error e => exact hrefl

theorem bind (htrans : ∀ ⦃s s' s''⦄, R s s' → R s' s'' → R s s'') {f : α → Edit σ β}
    (h : edit.Leads R) (hf : ∀ a, (f a).Leads R) : (edit >>= f).Leads R := by
  intro s
  cases hedit : edit s with
  | ok a s' =>
      rw [outcome_bind_of_ok hedit]
      exact htrans (h.of_ok hedit) (hf a s')
  | error e s' =>
      rw [outcome_bind_of_error hedit]
      exact h.of_error hedit

theorem forM (hrefl : ∀ s, R s s) (htrans : ∀ ⦃s s' s''⦄, R s s' → R s' s'' → R s s'')
    {f : β → Edit σ Unit} (hf : ∀ x, (f x).Leads R) (xs : List β) : (xs.forM f).Leads R := by
  induction xs with
  | nil => exact of_pure hrefl ()
  | cons x rest ih => exact (hf x).bind htrans fun _ => ih

end Leads

/-- Whether an edit leaves some part of every state as it was, whichever way it ends. -/
def Keeps {γ : Type} (edit : Edit σ α) (part : σ → γ) : Prop :=
  edit.Leads fun s s' => part s' = part s

namespace Keeps

variable {γ : Type} {edit : Edit σ α} {part : σ → γ}

theorem of_pure (a : α) : (pure a : Edit σ α).Keeps part := fun _ => rfl

theorem bind {f : α → Edit σ β} (h : edit.Keeps part) (hf : ∀ a, (f a).Keeps part) :
    (edit >>= f).Keeps part :=
  Leads.bind (fun _ _ _ hfirst hrest => hrest.trans hfirst) h hf

theorem get_bind {f : σ → Edit σ β} (hf : ∀ s, (f s).Keeps part) : (get >>= f).Keeps part :=
  Leads.get_bind hf

theorem liftM_bind (x : Except Failure α) {f : α → Edit σ β} (hf : ∀ a, (f a).Keeps part) :
    (liftM x >>= f).Keeps part :=
  Leads.liftM_bind (fun s => Eq.refl (part s)) x hf

theorem forM {f : β → Edit σ Unit} (hf : ∀ x, (f x).Keeps part) (xs : List β) :
    (xs.forM f).Keeps part :=
  Leads.forM (fun s => Eq.refl (part s)) (fun _ _ _ hfirst hrest => hrest.trans hfirst) hf xs

end Keeps

/-! ### Edits seen through a view -/

/-- Whether an edit is, as far as a view of its states shows, another edit: with the same answer,
and with what the view shows changed in the same way. -/
def Mirrors (view : σ → τ) (edit : Edit σ α) (edit' : Edit τ α) : Prop :=
  ∀ s, (edit.outcome s).map id view = edit'.outcome (view s)

namespace Mirrors

variable {view : σ → τ} {edit : Edit σ α} {edit' : Edit τ α}

theorem of_ok (h : edit.Mirrors view edit') {s s' : σ} {a : α} (hok : edit s = .ok a s') :
    edit' (view s) = .ok a (view s') := by
  rw [← outcome_eq_ok_iff, ← h s, outcome_eq_ok_iff.mpr hok]
  rfl

theorem of_error (h : edit.Mirrors view edit') {s s' : σ} {e : Failure}
    (herror : edit s = .error e s') : edit' (view s) = .error e (view s') := by
  rw [← outcome_eq_error_iff, ← h s, outcome_eq_error_iff.mpr herror]
  rfl

theorem of_pure (a : α) : Mirrors view (pure a) (pure a) := fun _ => rfl

theorem bind (h : edit.Mirrors view edit') {f : α → Edit σ β} {f' : α → Edit τ β}
    (hf : ∀ a, (f a).Mirrors view (f' a)) : Mirrors view (edit >>= f) (edit' >>= f') := by
  intro s
  cases hedit : edit s with
  | ok a s' =>
      rw [outcome_bind_of_ok hedit, outcome_bind_of_ok (h.of_ok hedit)]
      exact hf a s'
  | error e s' =>
      rw [outcome_bind_of_error hedit, outcome_bind_of_error (h.of_error hedit)]
      rfl

theorem liftM_bind (x : Except Failure α) {f : α → Edit σ β} {f' : α → Edit τ β}
    (hf : ∀ a, (f a).Mirrors view (f' a)) :
    Mirrors view (liftM x >>= f) (liftM x >>= f') := by
  cases x with
  | ok a => exact hf a
  | error e => exact fun _ => rfl

theorem forM {f : β → Edit σ Unit} {f' : β → Edit τ Unit} (hf : ∀ x, (f x).Mirrors view (f' x))
    (xs : List β) : Mirrors view (xs.forM f) (xs.forM f') := by
  induction xs with
  | nil => exact of_pure ()
  | cons x rest ih => exact (hf x).bind fun _ => ih

theorem foldlM {f : α → β → Edit σ α} {f' : α → β → Edit τ α}
    (hf : ∀ a x, (f a x).Mirrors view (f' a x)) (xs : List β) (a : α) :
    Mirrors view (xs.foldlM f a) (xs.foldlM f' a) := by
  induction xs generalizing a with
  | nil => exact of_pure a
  | cons x rest ih =>
      rw [List.foldlM_cons, List.foldlM_cons]
      exact (hf a x).bind ih

end Mirrors

end Cadastre.Edit
