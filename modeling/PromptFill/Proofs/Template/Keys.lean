/-
  The keys that a template asks for.

  Of the expressions with one key the first decides: `first?` finds it, and
  `mem_placeholders_iff` says that a template asks for what its first expressions describe.
  No key is asked for twice, so there are as many placeholders as there are expressions with a
  key exactly if no key is repeated (`length_distinct_eq_iff`).

  Keys are asked for in the order in which they come first (`pairwise_idxOf_distinct`,
  `map_key_distinct`), and what follows adds those that are new (`distinct_append`).
-/
import PromptFill.Proofs.Table
import PromptFill.Proofs.Template.Placeholder
import PromptFill.Template.Fill

namespace PromptFill

namespace Placeholder

variable {p : Placeholder} {ps : List Placeholder}

/-! ## Distinct keys -/

theorem mem_distinct_iff : p ∈ distinct ps ↔ ps.find? (fun q => q.key = p.key) = some p := by
  induction ps with
  | nil => simp [distinct]
  | cons q ps ih =>
    rw [distinct, List.mem_cons, List.mem_filter, ih, List.find?_cons]
    by_cases h : q.key = p.key
    · simp [h, eq_comm]
    · have hp : p ≠ q := by rintro rfl; exact h rfl
      simp [h, hp, Ne.symm h]

theorem distinct_sublist (ps : List Placeholder) : (distinct ps).Sublist ps := by
  induction ps with
  | nil => exact List.Sublist.slnil
  | cons q ps ih => exact (List.filter_sublist.trans ih).cons_cons q

theorem nodup_map_key_distinct (ps : List Placeholder) : ((distinct ps).map key).Nodup := by
  induction ps with
  | nil => exact List.nodup_nil
  | cons q ps ih =>
    rw [distinct, List.map_cons, List.nodup_cons]
    refine ⟨?_, ih.sublist (List.filter_sublist.map key)⟩
    simp only [List.mem_map, List.mem_filter, decide_eq_true_eq, not_exists, not_and]
    exact fun q' hq' => hq'.2

theorem mem_map_key_distinct_iff {k : Text} : k ∈ (distinct ps).map key ↔ k ∈ ps.map key := by
  constructor
  · intro h
    exact ((distinct_sublist ps).map key).subset h
  · intro h
    obtain ⟨p, hp, rfl⟩ := List.mem_map.1 h
    have hs : (ps.find? fun q => q.key = p.key).isSome := by
      rw [List.find?_isSome]
      exact ⟨p, hp, by simp⟩
    obtain ⟨q, hq⟩ := Option.isSome_iff_exists.1 hs
    have hk : q.key = p.key := by simpa using List.find?_some hq
    rw [← hk] at hq ⊢
    exact List.mem_map_of_mem (mem_distinct_iff.2 hq)

theorem distinct_of_nodup {ps : List Placeholder} (h : (ps.map key).Nodup) : distinct ps = ps := by
  induction ps with
  | nil => rfl
  | cons p ps ih =>
    obtain ⟨hp, hps⟩ := List.nodup_cons.1 h
    rw [distinct, ih hps, List.filter_eq_self.2]
    intro q hq
    refine decide_eq_true fun he => hp ?_
    rw [← he]
    exact List.mem_map_of_mem hq

theorem length_distinct_eq_iff : (distinct ps).length = ps.length ↔ (ps.map key).Nodup := by
  constructor
  · intro h
    rw [← (distinct_sublist ps).eq_of_length h]
    exact nodup_map_key_distinct ps
  · intro h
    rw [distinct_of_nodup h]

/-- The first occurrences of the keys that are not empty stand in the order of the list. -/
theorem pairwise_idxOf_distinct (ps : List Placeholder) :
    (distinct (ps.filter fun p => p.key ≠ [])).Pairwise fun p q =>
      (ps.map key).idxOf p.key < (ps.map key).idxOf q.key := by
  induction ps with
  | nil => exact List.Pairwise.nil
  | cons p ps ih =>
    -- behind another key, all positions are one further
    have hnext {qs : List Placeholder} (hqs : qs.Sublist (distinct (ps.filter fun p => p.key ≠ [])))
        (hne : ∀ q ∈ qs, p.key ≠ q.key) :
        qs.Pairwise fun q r =>
          ((p :: ps).map key).idxOf q.key < ((p :: ps).map key).idxOf r.key := by
      refine (ih.sublist hqs).imp_of_mem fun {q r} hq hr hlt => ?_
      rw [List.map_cons, List.idxOf_cons_ne _ (hne q hq), List.idxOf_cons_ne _ (hne r hr)]
      exact Nat.succ_lt_succ hlt
    by_cases hp : p.key = []
    · rw [List.filter_cons_of_neg (by simp [hp])]
      refine hnext (List.Sublist.refl _) fun q hq => ?_
      have hmem := List.mem_filter.1 ((distinct_sublist _).subset hq)
      rw [hp]
      exact Ne.symm (of_decide_eq_true hmem.2)
    · rw [List.filter_cons_of_pos (by simp [hp]), distinct, List.pairwise_cons]
      have hother {q : Placeholder} (hq : q ∈ (distinct (ps.filter fun p => p.key ≠ [])).filter
          fun q => q.key ≠ p.key) : p.key ≠ q.key :=
        Ne.symm (of_decide_eq_true (List.mem_filter.1 hq).2)
      refine ⟨fun q hq => ?_, hnext List.filter_sublist fun q hq => hother hq⟩
      rw [List.map_cons, List.idxOf_cons_self, List.idxOf_cons_ne _ (hother hq)]
      exact Nat.succ_pos _

/-- The keys that are asked for are those of the list without repetitions. -/
theorem map_key_distinct (ps : List Placeholder) :
    (distinct ps).map key = (ps.map key).eraseDups := by
  induction ps with
  | nil => rfl
  | cons p ps ih =>
    have hrest : ((distinct ps).filter fun q => q.key ≠ p.key).map key =
        ((distinct ps).map key).filter fun k => !k == p.key := by
      rw [List.filter_map]
      congr 1
      refine List.filter_congr fun q _ => ?_
      simp [beq_eq_decide]
    rw [distinct, List.map_cons, List.map_cons, hrest, ih, ← Table.eraseDups_filter,
      List.eraseDups_cons]

theorem distinct_append (ps qs : List Placeholder) :
    distinct (ps ++ qs) = distinct ps ++ (distinct qs).filter fun q => q.key ∉ ps.map key := by
  induction ps with
  | nil => simp [distinct]
  | cons p ps ih =>
    rw [List.cons_append, distinct, ih, List.filter_append, List.filter_filter, distinct,
      List.cons_append]
    congr 3
    funext q
    simp [not_or]

end Placeholder

namespace Template

open Placeholder

variable {t : Template}

/-! ## First expressions -/

/-- The first expression with a key. -/
def first? (t : Template) (key : Text) : Option Text :=
  t.expressions.find? fun inner => (ofInner inner).key = key

theorem key_of_first? {key inner : Text} (h : t.first? key = some inner) :
    (ofInner inner).key = key := by
  simpa using List.find?_some h

theorem mem_of_first? {key inner : Text} (h : t.first? key = some inner) : inner ∈ t.expressions :=
  List.mem_of_find?_eq_some h

theorem exists_first? {inner : Text} (h : inner ∈ t.expressions) :
    ∃ first, t.first? (ofInner inner).key = some first := by
  rw [← Option.isSome_iff_exists, first?, List.find?_isSome]
  exact ⟨inner, h, by simp⟩

theorem mem_placeholders_iff {p : Placeholder} :
    p ∈ t.placeholders ↔ p.key ≠ [] ∧ ∃ inner, t.first? p.key = some inner ∧ ofInner inner = p := by
  rw [placeholders, mem_distinct_iff, List.find?_filter, List.find?_map, Option.map_eq_some_iff]
  by_cases hk : p.key = []
  · simp only [hk, ne_eq, not_true_eq_false, false_and, iff_false, not_exists, not_and]
    intro inner h
    simpa [and_comm] using List.find?_some h
  · have hf : ((fun q : Placeholder => decide (decide (q.key ≠ []) = true ∧
          decide (q.key = p.key) = true)) ∘ ofInner) =
        fun inner => decide ((ofInner inner).key = p.key) := by
      funext inner
      simp only [Function.comp_apply, decide_eq_true_eq, decide_eq_decide, and_iff_right_iff_imp]
      intro h
      rw [h]
      exact hk
    rw [hf]
    simp [hk, first?]

theorem mem_map_key_placeholders_iff {k : Text} :
    k ∈ t.placeholders.map key ↔ k ≠ [] ∧ ∃ inner ∈ t.expressions, (ofInner inner).key = k := by
  rw [placeholders, mem_map_key_distinct_iff]
  simp only [List.mem_map, List.mem_filter, decide_eq_true_eq]
  constructor
  · rintro ⟨p, ⟨⟨inner, hi, rfl⟩, hk⟩, rfl⟩
    exact ⟨hk, inner, hi, rfl⟩
  · rintro ⟨hk, inner, hi, rfl⟩
    exact ⟨ofInner inner, ⟨⟨inner, hi, rfl⟩, hk⟩, rfl⟩

end Template

end PromptFill
