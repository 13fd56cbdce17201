/-
  Lines written and read.

  No line holds a line break (`isLine_of_mem_lines`), and lines that hold none are what is
  read from the text that they are written to (`lines_unlines`).
-/
import PromptFill.Text.Lines

namespace PromptFill.Text

/-- The text that lines are written to, a line feed ending each. -/
def unlines (ls : List Text) : Text := ls.flatMap (· ++ ['\n'])

/-- Whether a text holds no line break. -/
def IsLine (l : Text) : Prop := ∀ c ∈ l, isLineBreak c = false

instance : DecidablePred IsLine := fun l =>
  decidable_of_iff (l.any isLineBreak = false) (by simp [IsLine, List.any_eq_false])

theorem lines_append_newline {l : Text} (h : IsLine l) (s : Text) :
    lines (l ++ '\n' :: s) = l :: lines s := by
  induction l with
  | nil => rfl
  | cons c l ih =>
    obtain ⟨hc, hl⟩ := List.forall_mem_cons.1 h
    rw [List.cons_append, lines, hc, ih hl]
    rfl

theorem lines_unlines {ls : List Text} (h : ∀ l ∈ ls, IsLine l) : lines (unlines ls) = ls := by
  induction ls with
  | nil => rfl
  | cons l ls ih =>
    obtain ⟨hl, hls⟩ := List.forall_mem_cons.1 h
    have hrest : unlines (l :: ls) = l ++ '\n' :: unlines ls := by simp [unlines]
    rw [hrest, lines_append_newline hl, ih hls]

theorem isLine_of_mem_lines {s l : Text} (h : l ∈ lines s) : IsLine l := by
  induction s generalizing l with
  | nil => cases h
  | cons c s ih =>
    rw [lines] at h
    cases hc : isLineBreak c with
    | true =>
      rw [hc, if_pos rfl] at h
      rcases List.mem_cons.1 h with rfl | h
      · intro x hx
        cases hx
      · exact ih h
    | false =>
      simp only [hc, Bool.false_eq_true, if_false] at h
      split at h
      · rw [List.mem_singleton.1 h]
        exact List.forall_mem_singleton.2 hc
      · rename_i first rest hlines
        rw [hlines] at ih
        rcases List.mem_cons.1 h with rfl | h
        · exact List.forall_mem_cons.2 ⟨hc, ih List.mem_cons_self⟩
        · exact ih (List.mem_cons_of_mem first h)

theorem unifyNewlines_of_not_mem {s : Text} (h : '\r' ∉ s) : unifyNewlines s = s := by
  fun_induction unifyNewlines s with
  | case1 => rfl
  | case2 s ih => exact absurd List.mem_cons_self h
  | case3 s hs ih => exact absurd List.mem_cons_self h
  | case4 c s hc hc' ih => rw [ih fun hs => h (List.mem_cons_of_mem c hs)]

/-- Lines have no line ends that would have to be unified. -/
theorem unifyNewlines_unlines {ls : List Text} (h : ∀ l ∈ ls, IsLine l) :
    unifyNewlines (unlines ls) = unlines ls := by
  refine unifyNewlines_of_not_mem fun hr => ?_
  obtain ⟨l, hl, hr⟩ := List.mem_flatMap.1 hr
  rcases List.mem_append.1 hr with hr | hr
  · have hbreak := h l hl '\r' hr
    cases hbreak
  · cases List.mem_singleton.1 hr

end PromptFill.Text
