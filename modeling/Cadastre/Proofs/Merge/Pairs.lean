import Cadastre.Proofs.Merge.Nearby
/-!
# Cadastre.Proofs.Merge.Pairs

**A store that grew by merging is a set of pairs.** However many plots were merged, in whatever
order, next to each other or not, once or again: a plot is merged towards a direction exactly if it
was given together with its neighbour there.

Each call sets two flags in two entries. Which flags they are is decided by a search for the
direction, and it is unique because the four neighbours of a plot are four plots, at the ends of the
range too (`PlotId.neighbor_inj`). Of the whole store it is said which entry each plot has
(`MergeStore.Holds`), so that no flag is lost, none is set beyond the pairs, and plots that are
merged with nobody have no entry.
-/

namespace Cadastre

/-! ### Neighbours -/

/-- The four neighbours of a plot are different plots. -/
theorem PlotId.neighbor_inj {id : PlotId} {d d' : Direction} :
    id.neighbor d = id.neighbor d' ↔ d = d' := by
  cases d <;> cases d' <;> simp [neighbor, Direction.offset]

theorem PlotId.neighbor_ne (id : PlotId) (d : Direction) : id.neighbor d ≠ id := by
  obtain ⟨x, z⟩ := id
  cases d <;> simp [neighbor, Direction.offset]

/-- A plot is the neighbour of its neighbour in the opposite direction and in no other. -/
theorem PlotId.neighbor_neighbor_eq_iff {id : PlotId} {d d' : Direction} :
    (id.neighbor d).neighbor d' = id ↔ d' = d.opposite := by
  nth_rewrite 2 [← id.neighbor_opposite d]
  exact neighbor_inj

/-! ### States as sets of directions -/

namespace MergeState

/-- The state with the directions of which something holds. -/
def ofSet (p : Direction → Bool) : MergeState := ofFlags (p .north) (p .east) (p .south) (p .west)

variable {p : Direction → Bool}

@[simp] theorem contains_ofSet (d : Direction) : (ofSet p).contains d = p d := by
  rw [ofSet, contains_ofFlags]
  cases d <;> rfl

theorem insert_ofSet (d : Direction) :
    (ofSet p).insert d = ofSet fun d' => p d' || decide (d' = d) := by
  cases d <;> simp only [ofSet] <;> cases p .north <;> cases p .east <;> cases p .south <;>
    cases p .west <;> rfl

theorem any_ofSet : (ofSet p).any = true ↔ ∃ d, p d = true := by
  constructor
  · intro hany
    by_contra hnone
    simp only [not_exists, Bool.not_eq_true] at hnone
    rw [ofSet, hnone, hnone, hnone, hnone] at hany
    exact absurd hany (by decide)
  · rintro ⟨d, hd⟩
    by_contra hany
    rw [Bool.not_eq_true] at hany
    have hcontains := contains_ofSet (p := p) d
    rw [eq_none_of_any hany, contains_none, hd] at hcontains
    exact Bool.false_ne_true hcontains

end MergeState

/-! ### Pairs of plots -/

/-- Whether two plots were given as a pair, in either order. -/
def Given (pairs : List (PlotId × PlotId)) (p q : PlotId) : Prop := (p, q) ∈ pairs ∨ (q, p) ∈ pairs

instance (pairs : List (PlotId × PlotId)) (p q : PlotId) : Decidable (Given pairs p q) :=
  inferInstanceAs (Decidable (_ ∨ _))

variable {pairs : List (PlotId × PlotId)}

theorem Given.symm {p q : PlotId} (h : Given pairs p q) : Given pairs q p := Or.symm h

/-- The state that pairs make of a plot: merged towards each neighbour that it was given with. -/
def MergeState.ofPairs (pairs : List (PlotId × PlotId)) (id : PlotId) : MergeState :=
  .ofSet fun d => decide (Given pairs id (id.neighbor d))

theorem MergeState.contains_ofPairs {id : PlotId} {d : Direction} :
    (ofPairs pairs id).contains d = true ↔ Given pairs id (id.neighbor d) := by
  rw [ofPairs, contains_ofSet, decide_eq_true_iff]

theorem MergeState.any_ofPairs {id : PlotId} :
    (ofPairs pairs id).any = true ↔ ∃ d, Given pairs id (id.neighbor d) := by
  simp only [ofPairs, any_ofSet, decide_eq_true_iff]

/-- A pair of neighbours adds one direction to each of the two. -/
theorem given_concat {a id : PlotId} {d d' : Direction} :
    Given (pairs ++ [(a, a.neighbor d)]) id (id.neighbor d') ↔
      Given pairs id (id.neighbor d') ∨ id = a ∧ d' = d ∨ id = a.neighbor d ∧ d' = d.opposite := by
  have hfirst : id = a ∧ id.neighbor d' = a.neighbor d ↔ id = a ∧ d' = d := by
    refine and_congr_right fun heq => ?_
    rw [heq, PlotId.neighbor_inj]
  have hsecond : id.neighbor d' = a ∧ id = a.neighbor d ↔ id = a.neighbor d ∧ d' = d.opposite := by
    rw [and_comm]
    refine and_congr_right fun heq => ?_
    rw [heq, PlotId.neighbor_neighbor_eq_iff]
  simp only [Given, List.mem_append, List.mem_singleton, Prod.mk.injEq, hfirst, hsecond]
  exact or_or_or_comm

/-- Plots that are no neighbours are no pair that counts. -/
theorem given_concat_of_apart {a b : PlotId} (hapart : ∀ d, a.neighbor d ≠ b) (id : PlotId)
    (d : Direction) :
    Given (pairs ++ [(a, b)]) id (id.neighbor d) ↔ Given pairs id (id.neighbor d) := by
  have hfirst : ¬(id = a ∧ id.neighbor d = b) := by
    rintro ⟨rfl, heq⟩
    exact hapart d heq
  have hsecond : ¬(id.neighbor d = a ∧ id = b) := by
    rintro ⟨rfl, rfl⟩
    exact hapart d.opposite (PlotId.neighbor_opposite _ d)
  simp only [Given, List.mem_append, List.mem_singleton, Prod.mk.injEq, hfirst, hsecond, or_false]

/-- What a pair of neighbours does to the states. -/
theorem MergeState.ofPairs_concat (a id : PlotId) (d : Direction) :
    ofPairs (pairs ++ [(a, a.neighbor d)]) id =
      if a.neighbor d = id then (ofPairs pairs id).insert d.opposite
      else if a = id then (ofPairs pairs id).insert d else ofPairs pairs id := by
  simp only [ofPairs, insert_ofSet, given_concat]
  split_ifs with hneighbor ha
  · subst hneighbor
    simp [a.neighbor_ne d]
  · subst ha
    simp [Ne.symm hneighbor]
  · simp [Ne.symm hneighbor, Ne.symm ha]

namespace MergeStore

/-! ### One call -/

theorem direction?_eq_some_iff {a b : PlotId} {d : Direction} :
    direction? a b = some d ↔ a.neighbor d = b := by
  unfold direction?
  constructor
  · intro hfound
    simpa using List.find?_some hfound
  · rintro rfl
    cases hfound : Direction.all.find? fun d' => a.neighbor d' = a.neighbor d with
    | none => simpa using List.find?_eq_none.mp hfound d d.mem_all
    | some d' =>
        have heq : a.neighbor d' = a.neighbor d := by simpa using List.find?_some hfound
        rw [PlotId.neighbor_inj.mp heq]

theorem direction?_eq_none_iff {a b : PlotId} :
    direction? a b = none ↔ ∀ d, a.neighbor d ≠ b := by
  simp only [Option.eq_none_iff_forall_ne_some, ne_eq, direction?_eq_some_iff]

/-- Plots can be merged exactly if they are neighbours. -/
theorem isSome_merge?_iff (s : MergeStore) (a b : PlotId) :
    (s.merge? a b).isSome = true ↔ ∃ d, a.neighbor d = b := by
  simp only [merge?, Option.isSome_map, Option.isSome_iff_exists, direction?_eq_some_iff]

/-- The store after a call to merge two plots. Plots that are no neighbours leave it as it is. -/
def merge (s : MergeStore) (a b : PlotId) : MergeStore := (s.merge? a b).getD s

theorem merge_of_apart (s : MergeStore) {a b : PlotId} (hapart : ∀ d, a.neighbor d ≠ b) :
    s.merge a b = s := by
  rw [merge, merge?, direction?_eq_none_iff.mpr hapart]
  rfl

theorem merge_neighbor (s : MergeStore) (a : PlotId) (d : Direction) :
    s.merge a (a.neighbor d) = (s.set a ((s.state a).insert d)).set (a.neighbor d)
      ((s.state (a.neighbor d)).insert d.opposite) := by
  rw [merge, merge?, direction?_eq_some_iff.mpr rfl]
  rfl

theorem mem_set {s : MergeStore} {id other : PlotId} {state : MergeState} :
    other ∈ (s.set id state).states ↔ id = other ∨ other ∈ s.states := by
  unfold set
  rw [Std.TreeMap.mem_insert, Std.LawfulEqCmp.compare_eq_iff_eq]

/-- A store holds what pairs make of it: the state of every plot, and an entry for those that are
merged at all. -/
structure Holds (s : MergeStore) (pairs : List (PlotId × PlotId)) : Prop where
  state : ∀ id, s.state id = .ofPairs pairs id
  mem_iff : ∀ id, id ∈ s.states ↔ (MergeState.ofPairs pairs id).any = true

variable {s s' : MergeStore}

theorem holds_empty : ({} : MergeStore).Holds [] where
  state id := by
    have hnone : MergeState.ofPairs [] id = .none := by simp [MergeState.ofPairs, Given]; rfl
    rw [hnone]
    exact Std.TreeMap.getD_emptyc
  mem_iff id := by simp [MergeState.any_ofPairs, Given]

/-- **One call** adds its pair, if it is one of neighbours. -/
theorem Holds.merge (h : s.Holds pairs) (a b : PlotId) :
    (s.merge a b).Holds (pairs ++ [(a, b)]) := by
  by_cases hapart : ∀ d, a.neighbor d ≠ b
  · have hpairs (id : PlotId) :
        MergeState.ofPairs (pairs ++ [(a, b)]) id = MergeState.ofPairs pairs id := by
      simp only [MergeState.ofPairs, given_concat_of_apart hapart]
    rw [s.merge_of_apart hapart]
    exact ⟨fun id => (hpairs id).symm ▸ h.state id, fun id => (hpairs id).symm ▸ h.mem_iff id⟩
  · simp only [not_forall, not_not] at hapart
    obtain ⟨d, rfl⟩ := hapart
    rw [merge_neighbor]
    constructor
    case state =>
      intro id
      rw [state_set, state_set, h.state, h.state, h.state, MergeState.ofPairs_concat]
      split_ifs with hneighbor ha
      · rw [hneighbor]
      · rw [ha]
      · rfl
    case mem_iff =>
      intro id
      rw [mem_set, mem_set, h.mem_iff, MergeState.any_ofPairs, MergeState.any_ofPairs]
      simp only [given_concat, exists_or, exists_and_left, exists_eq, and_true]
      tauto

/-! ### All calls -/

/-- The store after merging plots pair by pair, in order, from an empty store. -/
def mergeAll (pairs : List (PlotId × PlotId)) : MergeStore :=
  pairs.foldl (fun s pair => s.merge pair.1 pair.2) {}

theorem mergeAll_concat (pairs : List (PlotId × PlotId)) (a b : PlotId) :
    mergeAll (pairs ++ [(a, b)]) = (mergeAll pairs).merge a b := by
  simp [mergeAll, List.foldl_append]

/-- **All calls** together leave a store that holds their pairs. -/
theorem holds_mergeAll (pairs : List (PlotId × PlotId)) : (mergeAll pairs).Holds pairs := by
  induction pairs using List.reverseRecOn with
  | nil => exact holds_empty
  | append_singleton pairs pair ih =>
      rw [mergeAll_concat]
      exact ih.merge pair.1 pair.2

/-- The flags that pairs set agree, whichever way round a pair was given. -/
theorem Holds.mutual (h : s.Holds pairs) : s.merges.Mutual := by
  intro id d
  show (s.state id).contains d = (s.state (id.neighbor d)).contains d.opposite
  rw [Bool.eq_iff_iff, h.state, h.state, MergeState.contains_ofPairs, MergeState.contains_ofPairs,
    PlotId.neighbor_opposite]
  exact ⟨Given.symm, Given.symm⟩

/-- The entry of a plot, by the pairs. -/
theorem Holds.getElem? (h : s.Holds pairs) (id : PlotId) :
    s.states[id]? = if (MergeState.ofPairs pairs id).any then some (MergeState.ofPairs pairs id)
      else none := by
  have hstate : s.states[id]?.getD .none = .ofPairs pairs id := by
    rw [← h.state, MergeStore.state, Std.TreeMap.getD_eq_getD_getElem?]
  have hmem := h.mem_iff id
  rw [Std.TreeMap.mem_iff_isSome_getElem?] at hmem
  cases hentry : s.states[id]? with
  | none => simpa [hentry] using hmem
  | some state =>
      rw [hentry] at hstate hmem
      rw [← hstate] at hmem ⊢
      simpa using hmem

/-- Two stores that hold pairs have the same entries exactly if the same neighbours were given. -/
theorem Holds.equiv_iff {pairs' : List (PlotId × PlotId)} (h : s.Holds pairs)
    (h' : s'.Holds pairs') :
    s.states.Equiv s'.states ↔
      ∀ id d, Given pairs id (id.neighbor d) ↔ Given pairs' id (id.neighbor d) := by
  constructor
  · intro hequiv id d
    have hstate : s.state id = s'.state id := hequiv.getD_eq
    rw [← MergeState.contains_ofPairs, ← MergeState.contains_ofPairs, ← h.state, ← h'.state, hstate]
  · intro hgiven
    have hpairs (id : PlotId) : MergeState.ofPairs pairs id = MergeState.ofPairs pairs' id := by
      simp only [MergeState.ofPairs, hgiven]
    refine Std.TreeMap.Equiv.of_forall_constGet?_eq fun id => ?_
    show s.states[id]? = s'.states[id]?
    rw [h.getElem?, h'.getElem?, hpairs]

/-- **A store is a set of pairs.** After any calls to merge plots, from an empty store, a further
call succeeds exactly for neighbours. A plot is merged towards a direction exactly if it was given
together with its neighbour there, in either order, so the flags of neighbours agree. Calls leave
the same entries exactly if the same neighbours were given, and pairs of others change nothing. -/
theorem mergeAll_of_pairs (pairs : List (PlotId × PlotId)) :
    (∀ a b, ((mergeAll pairs).merge? a b).isSome = true ↔ ∃ d, a.neighbor d = b) ∧
      (∀ id d, ((mergeAll pairs).state id).contains d = true ↔
        (id, id.neighbor d) ∈ pairs ∨ (id.neighbor d, id) ∈ pairs) ∧
      (mergeAll pairs).merges.Mutual ∧
      (∀ pairs', (mergeAll pairs').states.Equiv (mergeAll pairs).states ↔
        ∀ id d, Given pairs' id (id.neighbor d) ↔ Given pairs id (id.neighbor d)) ∧
      ∀ a b, (∃ d, a.neighbor d = b) ∨ mergeAll (pairs ++ [(a, b)]) = mergeAll pairs := by
  have hholds := holds_mergeAll pairs
  refine ⟨(mergeAll pairs).isSome_merge?_iff, fun id d => ?_, hholds.mutual,
    fun pairs' => (holds_mergeAll pairs').equiv_iff hholds, fun a b => ?_⟩
  · rw [hholds.state]
    exact MergeState.contains_ofPairs
  · by_cases hapart : ∀ d, a.neighbor d ≠ b
    · exact .inr (by rw [mergeAll_concat, merge_of_apart _ hapart])
    · simp only [not_forall, not_not] at hapart
      exact .inl hapart

end MergeStore

end Cadastre
