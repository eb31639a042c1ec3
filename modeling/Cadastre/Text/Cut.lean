/-!
# Cadastre.Text.Cut

**Cutting a text at a separator**: at its first place, at its last place, or at every place
(`List.splitOn`).
-/

namespace Cadastre.Text

/-- The parts before and after the first place of a separator. -/
def cutFirst? (sep : Char) : List Char → Option (List Char × List Char)
  | [] => none
  | c :: s => if c = sep then some ([], s) else (cutFirst? sep s).map fun (a, b) => (c :: a, b)

/-- The parts before and after the last place of a separator. -/
def cutLast? (sep : Char) : List Char → Option (List Char × List Char)
  | [] => none
  | c :: s =>
    match cutLast? sep s with
    | some (a, b) => some (c :: a, b)
    | none => if c = sep then some ([], s) else none

theorem cutLast?_eq_none {sep : Char} {s : List Char} : cutLast? sep s = none ↔ sep ∉ s := by
  induction s with
  | nil => simp [cutLast?]
  | cons c s ih =>
    rw [cutLast?]
    cases h : cutLast? sep s with
    | none => simp [ih.1 h, eq_comm]
    | some p => simpa using fun _ => Classical.not_not.1 (mt ih.2 (by simp [h]))

theorem cutLast?_eq_some {sep : Char} {s a b : List Char} (h : cutLast? sep s = some (a, b)) :
    s = a ++ sep :: b ∧ sep ∉ b := by
  induction s generalizing a with
  | nil => simp [cutLast?] at h
  | cons c s ih =>
    rw [cutLast?] at h
    cases e : cutLast? sep s with
    | none =>
      simp only [e] at h
      split at h
      · rename_i hc
        obtain ⟨rfl, rfl⟩ := Prod.mk.inj (Option.some.inj h)
        exact ⟨by simp [hc], cutLast?_eq_none.1 e⟩
      · exact nomatch h
    | some p =>
      simp only [e] at h
      obtain ⟨rfl, rfl⟩ := Prod.mk.inj (Option.some.inj h)
      obtain ⟨rfl, notMem⟩ := ih e
      exact ⟨rfl, notMem⟩

end Cadastre.Text
