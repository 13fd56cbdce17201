/-
  The parts of a text between separators.

  What stands before the first separator and what follows it are determined by the text
  (`append_cons_inj`).  No part between separators holds one (`not_mem_of_mem_splitOn`) or a
  character that is not in the text (`subset_of_mem_splitOn`), there are two parts or more exactly
  if the text holds the separator (`two_le_length_splitOn_iff`), and blanks at the end of the text
  only reach the last part, so that they do not matter once the parts are trimmed
  (`map_trim_splitOn_append_blank`).
-/
import PromptFill.Proofs.Text.Trim

namespace PromptFill.Text

variable {c : Char} {s : Text}

theorem append_cons_inj {a b t : Text} (ha : c ∉ a) (hb : c ∉ b) :
    a ++ c :: s = b ++ c :: t ↔ a = b ∧ s = t := by
  constructor
  · intro h
    have hs : cutAt c (a ++ c :: s) = some (a, s) := cutAt_eq_some_iff.2 ⟨ha, rfl⟩
    have ht : cutAt c (b ++ c :: t) = some (b, t) := cutAt_eq_some_iff.2 ⟨hb, rfl⟩
    rw [h, ht] at hs
    cases hs
    exact ⟨rfl, rfl⟩
  · rintro ⟨rfl, rfl⟩
    rfl

theorem not_mem_of_mem_splitOn {part : Text} (h : part ∈ s.splitOn c) : c ∉ part := by
  induction s generalizing part with
  | nil =>
    rw [List.splitOn_nil, List.mem_singleton] at h
    rw [h]
    exact List.not_mem_nil
  | cons x s ih =>
    obtain ⟨first, parts, hs⟩ := List.exists_cons_of_ne_nil (List.splitOn_ne_nil c s)
    rw [List.splitOn_cons_eq_if_modifyHead] at h
    rw [hs] at h ih
    split_ifs at h with hx
    · rcases List.mem_cons.1 h with rfl | h
      · exact List.not_mem_nil
      · exact ih h
    · rw [List.modifyHead_cons] at h
      rcases List.mem_cons.1 h with rfl | h
      · refine fun hc => ih List.mem_cons_self ?_
        rcases List.mem_cons.1 hc with rfl | hc
        · exact absurd (beq_self_eq_true c) hx
        · exact hc
      · exact ih (List.mem_cons_of_mem first h)

theorem two_le_length_splitOn_iff : 2 ≤ (s.splitOn c).length ↔ c ∈ s := by
  constructor
  · intro h
    by_contra hc
    rw [List.splitOn_eq_singleton hc, List.length_singleton] at h
    omega
  · intro h
    obtain ⟨a, b, rfl⟩ := List.append_of_mem h
    have ha := List.length_pos_iff.2 (List.splitOn_ne_nil c a)
    have hb := List.length_pos_iff.2 (List.splitOn_ne_nil c b)
    rw [List.splitOn_append_cons_self, List.length_append]
    omega

theorem map_trim_splitOn_intercalate {parts : List Text} {w : Text} (hc : isBlankChar c = false)
    (hw : isBlank w = true) (hne : parts ≠ []) (hp : ∀ part ∈ parts, c ∉ part) :
    (([c].intercalate parts ++ w).splitOn c).map trim = parts.map trim := by
  induction parts with
  | nil => exact absurd rfl hne
  | cons part parts ih =>
    have hpart : c ∉ part := hp part List.mem_cons_self
    cases parts with
    | nil =>
      have hs : c ∉ part ++ w := fun h =>
        (List.mem_append.1 h).elim hpart (not_mem_of_isBlank hw hc)
      rw [List.intercalate_singleton, List.splitOn_eq_singleton hs, List.map_singleton,
        List.map_singleton, trim_append_blank hw]
    | cons part' parts =>
      have hrest := ih (List.cons_ne_nil part' parts) fun p h => hp p (List.mem_cons_of_mem part h)
      rw [List.intercalate_cons_cons, List.append_assoc, List.append_assoc, List.singleton_append,
        List.splitOn_append_cons_self_of_not_mem hpart, List.map_cons, hrest, ← List.map_cons]

/-- Blanks at the end of a text are trimmed away with its last part. -/
theorem map_trim_splitOn_append_blank {w : Text} (hc : isBlankChar c = false)
    (hw : isBlank w = true) (s : Text) :
    ((s ++ w).splitOn c).map trim = (s.splitOn c).map trim := by
  have h := map_trim_splitOn_intercalate hc hw (List.splitOn_ne_nil c s)
    fun part hp => not_mem_of_mem_splitOn hp
  rwa [List.intercalate_splitOn] at h

theorem subset_intercalate {sep part : Text} {parts : List Text} (h : part ∈ parts) :
    part ⊆ sep.intercalate parts := by
  induction parts with
  | nil => cases h
  | cons first parts ih =>
    cases parts with
    | nil =>
      rw [List.mem_singleton] at h
      rw [List.intercalate_singleton, h]
      exact List.Subset.refl first
    | cons next parts =>
      rw [List.intercalate_cons_cons]
      rcases List.mem_cons.1 h with rfl | h
      · exact List.subset_append_of_subset_left _ (List.subset_append_left part sep)
      · exact List.subset_append_of_subset_right _ (ih h)

theorem subset_of_mem_splitOn {part : Text} (h : part ∈ s.splitOn c) : part ⊆ s := by
  have hparts : part ⊆ [c].intercalate (s.splitOn c) := subset_intercalate h
  rwa [List.intercalate_splitOn] at hparts

theorem not_mem_intercalate {sep : Text} {parts : List Text} (hs : c ∉ sep)
    (hp : ∀ part ∈ parts, c ∉ part) : c ∉ sep.intercalate parts := by
  induction parts with
  | nil => exact List.not_mem_nil
  | cons part parts ih =>
    have hpart : c ∉ part := hp part List.mem_cons_self
    have hrest := ih fun p h => hp p (List.mem_cons_of_mem part h)
    cases parts with
    | nil =>
      rw [List.intercalate_singleton]
      exact hpart
    | cons part' parts =>
      rw [List.intercalate_cons_cons, List.mem_append, List.mem_append, not_or, not_or]
      exact ⟨⟨hpart, hs⟩, hrest⟩

end PromptFill.Text
