import Cadastre.Text.Blank
import Cadastre.Text.Cut
import Mathlib.Data.List.DropRight
import Mathlib.Data.List.TakeWhile
/-!
# Cadastre.Proofs.Text.Blank

**Trimming.** A text is its trimmed form with blanks before and behind it
(`Text.exists_padding`), and blanks put there change nothing about the trimmed form
(`Text.trimList_padded`). This goes through a cut at a separator that is no blank: where only the
trimmed parts count, blanks around the whole text do not (`Text.trimmed_splitOn_padded`).
-/

namespace Cadastre.Text

/-- A text of blanks only. -/
def Blanks (s : List Char) : Prop := ∀ c ∈ s, isBlank c = true

/-- A text without a blank. -/
def Solid (s : List Char) : Prop := ∀ c ∈ s, isBlank c = false

variable {s before after : List Char}

theorem Blanks.notMem (h : Blanks s) {sep : Char} (hsep : isBlank sep = false) : sep ∉ s := by
  intro hmem
  rw [h sep hmem] at hsep
  cases hsep

/-! ### The trimmed form -/

theorem trimList_eq (s : List Char) : trimList s = (s.dropWhile isBlank).rdropWhile isBlank := rfl

/-- A text is its trimmed form and the blanks around it. -/
theorem exists_padding (s : List Char) :
    ∃ before after, Blanks before ∧ Blanks after ∧ s = before ++ trimList s ++ after := by
  refine ⟨s.takeWhile isBlank, (s.dropWhile isBlank).rtakeWhile isBlank, ?_, ?_, ?_⟩
  · intro c hc
    exact List.mem_takeWhile_imp hc
  · intro c hc
    exact List.mem_rtakeWhile_imp hc
  · rw [trimList_eq, List.append_assoc, List.rdropWhile_append_rtakeWhile,
      List.takeWhile_append_dropWhile]

theorem rdropWhile_append_blanks (s : List Char) (h : Blanks after) :
    (s ++ after).rdropWhile isBlank = s.rdropWhile isBlank := by
  have hreverse : ∀ c ∈ after.reverse, isBlank c = true := by
    intro c hc
    exact h c (List.mem_reverse.mp hc)
  rw [List.rdropWhile, List.reverse_append, List.dropWhile_append_of_pos hreverse, List.rdropWhile]

/-- Blanks around a text are of no account to its trimmed form. -/
theorem trimList_padded (hbefore : Blanks before) (hafter : Blanks after) (s : List Char) :
    trimList (before ++ s ++ after) = trimList s := by
  rw [List.append_assoc, trimList_eq, trimList_eq, List.dropWhile_append_of_pos hbefore,
    List.dropWhile_append]
  split
  · rename_i hempty
    rw [List.isEmpty_iff.mp hempty, List.dropWhile_eq_nil_iff.mpr hafter]
  · exact rdropWhile_append_blanks _ hafter

theorem trimList_append_blanks (h : Blanks after) (s : List Char) :
    trimList (s ++ after) = trimList s := by
  have hpadded := trimList_padded (List.forall_mem_nil _) h s
  rwa [List.nil_append] at hpadded

theorem trimList_blanks_append (h : Blanks before) (s : List Char) :
    trimList (before ++ s) = trimList s := by
  have hpadded := trimList_padded h (List.forall_mem_nil _) s
  rwa [List.append_nil] at hpadded

@[simp] theorem trimList_trimList (s : List Char) : trimList (trimList s) = trimList s := by
  obtain ⟨before, after, hbefore, hafter, hs⟩ := exists_padding s
  conv_rhs => rw [hs, trimList_padded hbefore hafter]

theorem trimList_of_blanks (h : Blanks s) : trimList s = [] := by
  simpa using trimList_append_blanks h []

theorem blanks_of_trimList (h : trimList s = []) : Blanks s := by
  obtain ⟨before, after, hbefore, hafter, hs⟩ := exists_padding s
  rw [h, List.append_nil] at hs
  intro c hc
  rw [hs] at hc
  rcases List.mem_append.mp hc with hc | hc
  · exact hbefore c hc
  · exact hafter c hc

/-- A text that begins and ends without a blank is left as it is, whatever is in between. -/
theorem trimList_between {a b : List Char} (ha : Solid a) (hb : Solid b) (ha' : a ≠ [])
    (hb' : b ≠ []) (s : List Char) : trimList (a ++ s ++ b) = a ++ s ++ b := by
  obtain ⟨first, a, rfl⟩ := List.exists_cons_of_ne_nil ha'
  obtain ⟨b, last, rfl⟩ := (List.eq_nil_or_concat b).resolve_left hb'
  have hfirst : ¬ isBlank first = true := by simp [ha first List.mem_cons_self]
  have hlast : ¬ isBlank last = true := by
    have hmem : last ∈ b.concat last := by simp
    simp [hb last hmem]
  rw [trimList_eq, List.concat_eq_append, List.cons_append, List.cons_append,
    List.dropWhile_cons_of_neg hfirst, ← List.append_assoc, ← List.cons_append,
    List.rdropWhile_concat_neg _ _ _ hlast]

theorem toList_trim (s : String) : (trim s).toList = trimList s.toList := String.toList_ofList

@[simp] theorem trim_trim (s : String) : trim (trim s) = trim s := by
  rw [trim, toList_trim, trimList_trimList, trim]

/-- Blanks around a keyword are of no account. -/
@[simp] theorem keyword_trim (s : String) : keyword (trim s) = keyword s := by
  rw [keyword, keyword, trim_trim]

/-! ### Cutting a text with blanks around it -/

variable {sep : Char}

theorem trimmed_splitOn_of_before (hsep : isBlank sep = false) (h : Blanks before)
    (s : List Char) :
    ((before ++ s).splitOn sep).map trimList = (s.splitOn sep).map trimList := by
  by_cases hmem : sep ∈ s
  · obtain ⟨a, b, rfl, ha⟩ := List.eq_append_cons_of_mem hmem
    have ha' : sep ∉ before ++ a := by simp [ha, h.notMem hsep]
    rw [← List.append_assoc, List.splitOn_append_cons_self_of_not_mem ha',
      List.splitOn_append_cons_self_of_not_mem ha, List.map_cons, List.map_cons,
      trimList_blanks_append h]
  · have hmem' : sep ∉ before ++ s := by simp [hmem, h.notMem hsep]
    rw [List.splitOn_eq_singleton hmem', List.splitOn_eq_singleton hmem, List.map_singleton,
      List.map_singleton, trimList_blanks_append h]

theorem trimmed_splitOn_of_after (hsep : isBlank sep = false) (h : Blanks after)
    (s : List Char) :
    ((s ++ after).splitOn sep).map trimList = (s.splitOn sep).map trimList := by
  cases hcut : cutLast? sep s with
  | none =>
      have hmem := cutLast?_eq_none.mp hcut
      have hmem' : sep ∉ s ++ after := by simp [hmem, h.notMem hsep]
      rw [List.splitOn_eq_singleton hmem', List.splitOn_eq_singleton hmem, List.map_singleton,
        List.map_singleton, trimList_append_blanks h]
  | some cut =>
      obtain ⟨a, b⟩ := cut
      obtain ⟨rfl, hb⟩ := cutLast?_eq_some hcut
      have hb' : sep ∉ b ++ after := by simp [hb, h.notMem hsep]
      rw [List.append_assoc, List.cons_append, List.splitOn_append_cons_self,
        List.splitOn_append_cons_self, List.splitOn_eq_singleton hb', List.splitOn_eq_singleton hb,
        List.map_append, List.map_append, List.map_singleton, List.map_singleton,
        trimList_append_blanks h]

/-- Where a text is cut and the parts are trimmed, blanks around the whole are of no account. -/
theorem trimmed_splitOn_trimList (hsep : isBlank sep = false) (s : List Char) :
    ((trimList s).splitOn sep).map trimList = (s.splitOn sep).map trimList := by
  obtain ⟨before, after, hbefore, hafter, hs⟩ := exists_padding s
  conv_rhs => rw [hs, trimmed_splitOn_of_after hsep hafter, trimmed_splitOn_of_before hsep hbefore]

/-! ### Letter case -/

/-- Only capitals have another small letter. -/
theorem toLower_of_not_capital {c : Char} (h : ¬ (65 ≤ c.toNat ∧ c.toNat ≤ 90)) :
    c.toLower = c := by
  unfold Char.toLower
  rw [dif_neg]
  simpa [UInt32.le_iff_toNat_le] using h

theorem toLower_of_isBlank {c : Char} (h : isBlank c = true) : c.toLower = c := by
  refine toLower_of_not_capital ?_
  simp only [isBlank, blankRanges, List.any_cons, List.any_nil, Bool.or_false, Bool.or_eq_true,
    Bool.and_eq_true, decide_eq_true_eq] at h
  omega

theorem toLower_of_isDigit {c : Char} (h : c.isDigit = true) : c.toLower = c := by
  refine toLower_of_not_capital ?_
  have hrange : 48 ≤ c.toNat ∧ c.toNat ≤ 57 := by
    simpa [Char.isDigit, UInt32.le_iff_toNat_le] using h
  omega

theorem map_toLower_digits {s : List Char} (h : s.all Char.isDigit = true) :
    s.map Char.toLower = s := by
  calc s.map Char.toLower
      _ = s.map id := by
        apply List.map_congr_left
        intro c hc
        exact toLower_of_isDigit (List.all_eq_true.mp h c hc)
      _ = s := List.map_id s

/-- A text that is solid in small letters is solid. -/
theorem solid_of_map_toLower (h : Solid (s.map Char.toLower)) : Solid s := by
  intro c hc
  by_contra hblank
  rw [Bool.not_eq_false] at hblank
  have hlower := h c.toLower (List.mem_map_of_mem hc)
  rw [toLower_of_isBlank hblank, hblank] at hlower
  cases hlower

end Cadastre.Text
