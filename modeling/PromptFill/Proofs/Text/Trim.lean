/-
  Trimming and its laws.

  Blanks at the two ends do not matter to `trim` (`trim_padded`), and a character that is not
  blank parts the two ends: `trim_append_cons` trims what stands before it at the start and what
  follows it at the end.
-/
import Mathlib.Data.List.DropRight
import PromptFill.Text.Blank

namespace PromptFill.Text

theorem exists_not_blank {s : Text} (h : isBlank s = false) :
    ∃ a c b, isBlankChar c = false ∧ s = a ++ c :: b := by
  obtain ⟨c, hc, hb⟩ := List.all_eq_false.1 h
  obtain ⟨a, b, rfl⟩ := List.append_of_mem hc
  exact ⟨a, c, b, by simpa using hb, rfl⟩

theorem not_mem_of_isBlank {c : Char} {s : Text} (hs : isBlank s = true)
    (hc : isBlankChar c = false) : c ∉ s := by
  intro h
  rw [List.all_eq_true.1 hs c h] at hc
  cases hc

/-! ## The two ends -/

theorem trimStart_blank_append {w : Text} (hw : isBlank w = true) (s : Text) :
    trimStart (w ++ s) = trimStart s :=
  List.dropWhile_append_of_pos (List.all_eq_true.1 hw)

theorem trimEnd_append_blank {w : Text} (hw : isBlank w = true) (s : Text) :
    trimEnd (s ++ w) = trimEnd s := by
  have hr : ∀ c ∈ w.reverse, isBlankChar c = true :=
    fun c hc => List.all_eq_true.1 hw c (List.mem_reverse.1 hc)
  rw [trimEnd, List.reverse_append, List.dropWhile_append_of_pos hr, ← trimEnd]

theorem trimStart_append_cons {c : Char} (hc : isBlankChar c = false) (a b : Text) :
    trimStart (a ++ c :: b) = trimStart a ++ c :: b := by
  induction a with
  | nil => simp [trimStart, hc]
  | cons x a ih =>
    by_cases hx : isBlankChar x
    · simpa [trimStart, hx] using ih
    · simp [trimStart, hx]

theorem trimEnd_append_cons {c : Char} (hc : isBlankChar c = false) (a b : Text) :
    trimEnd (a ++ c :: b) = a ++ c :: trimEnd b := by
  have hs := trimStart_append_cons hc b.reverse a.reverse
  rw [trimStart, trimStart] at hs
  rw [trimEnd, List.reverse_append, List.reverse_cons, List.append_assoc, List.singleton_append, hs]
  simp [trimEnd]

theorem exists_blank_trimStart (s : Text) : ∃ w, isBlank w = true ∧ s = w ++ trimStart s :=
  ⟨s.takeWhile isBlankChar, List.all_takeWhile, List.takeWhile_append_dropWhile.symm⟩

theorem exists_blank_trimEnd (s : Text) : ∃ w, isBlank w = true ∧ s = trimEnd s ++ w := by
  obtain ⟨w, hw, hs⟩ := exists_blank_trimStart s.reverse
  refine ⟨w.reverse, by rw [isBlank, List.all_reverse]; exact hw, ?_⟩
  have := congrArg List.reverse hs
  rwa [List.reverse_reverse, List.reverse_append] at this

theorem trimStart_eq_nil_or (s : Text) :
    trimStart s = [] ∨ ∃ c r, isBlankChar c = false ∧ trimStart s = c :: r := by
  cases h : trimStart s with
  | nil => exact Or.inl rfl
  | cons c r =>
    refine Or.inr ⟨c, r, ?_, rfl⟩
    have hc := List.head?_dropWhile_not isBlankChar s
    rw [← trimStart, h] at hc
    exact hc

/-! ## Trimming -/

theorem trim_append_cons {c : Char} (hc : isBlankChar c = false) (a b : Text) :
    trim (a ++ c :: b) = trimStart a ++ c :: trimEnd b := by
  rw [trim, trimStart_append_cons hc, trimEnd_append_cons hc]

theorem trim_blank_append {w : Text} (hw : isBlank w = true) (s : Text) :
    trim (w ++ s) = trim s := by
  rw [trim, trimStart_blank_append hw, ← trim]

theorem trim_append_blank {w : Text} (hw : isBlank w = true) (s : Text) :
    trim (s ++ w) = trim s := by
  cases hs : isBlank s with
  | true =>
    have hsw : isBlank (s ++ w) = true := by
      rw [isBlank] at hs hw ⊢
      rw [List.all_append, hs, hw, Bool.and_self]
    rw [isBlank_iff_trim.1 hs, isBlank_iff_trim.1 hsw]
  | false =>
    obtain ⟨a, c, b, hc, rfl⟩ := exists_not_blank hs
    rw [List.append_assoc, List.cons_append, trim_append_cons hc, trim_append_cons hc,
      trimEnd_append_blank hw]

/-- Padding with blanks is trimmed away. -/
theorem trim_padded {w w' : Text} (hw : isBlank w = true) (hw' : isBlank w' = true) (s : Text) :
    trim (w ++ s ++ w') = trim s := by
  rw [trim_append_blank hw', trim_blank_append hw]

theorem trim_trimStart (s : Text) : trim (trimStart s) = trim s := by
  obtain ⟨w, hw, hs⟩ := exists_blank_trimStart s
  conv_rhs => rw [hs, trim_blank_append hw]

theorem trim_trimEnd (s : Text) : trim (trimEnd s) = trim s := by
  obtain ⟨w, hw, hs⟩ := exists_blank_trimEnd s
  conv_rhs => rw [hs, trim_append_blank hw]

theorem trim_trim (s : Text) : trim (trim s) = trim s := by
  have h : trim (trimEnd (trimStart s)) = trim s := by rw [trim_trimEnd, trim_trimStart]
  rwa [← trim] at h

/-- A trimmed text is blank only if it is empty. -/
theorem eq_nil_of_isBlank_trim {s : Text} (h : isBlank (trim s) = true) : trim s = [] := by
  rw [← trim_trim s]
  exact isBlank_iff_trim.1 h

/-- A trimmed text does not begin with a blank. -/
theorem isBlankChar_of_trim_eq_cons {c : Char} {s r : Text} (h : trim s = c :: r) :
    isBlankChar c = false := by
  obtain hs | ⟨x, t, hx, hs⟩ := trimStart_eq_nil_or s
  · rw [trim, hs] at h
    cases h
  · have ht := trimEnd_append_cons hx [] t
    rw [List.nil_append, ← hs, ← trim, h] at ht
    obtain ⟨rfl, -⟩ := List.cons.inj ht
    exact hx

theorem trimEnd_of_trim_eq {s : Text} (h : trim s = s) : trimEnd s = s := by
  rw [← h, trim]
  exact List.rdropWhile_idempotent isBlankChar (trimStart s)

theorem mem_of_mem_trimEnd {c : Char} {s : Text} (h : c ∈ trimEnd s) : c ∈ s :=
  (List.rdropWhile_prefix isBlankChar s).subset h

theorem mem_of_mem_trim {c : Char} {s : Text} (h : c ∈ trim s) : c ∈ s :=
  List.dropWhile_subset isBlankChar (mem_of_mem_trimEnd h)

theorem length_trim_le (s : Text) : (trim s).length ≤ s.length :=
  (List.rdropWhile_prefix isBlankChar _).length_le.trans (List.dropWhile_suffix _).length_le

/-- A text that ends in no blank is trimmed to nothing only if it is empty. -/
theorem trim_trimEnd_eq_nil_iff {s : Text} : trim (trimEnd s) = [] ↔ trimEnd s = [] := by
  rw [trim_trimEnd, ← isBlank_iff_trim, trimEnd_eq_nil_iff]

end PromptFill.Text
