/-
  Warnings and the keys they are about.

  A warning is given by the first character of what stands between two brackets, a key is read
  from what stands before the first equals sign.  Both are trimmed first, and
  `key_eq_nil_iff` says that they agree: there is a warning exactly where there is no key.

  `map_message_warnings` is what is said about a whole text, and what can be relied on if there
  is nothing to say about its expressions.
-/
import PromptFill.Proofs.Template.Keys
import PromptFill.Template.Warning

namespace PromptFill

open Text Placeholder

/-- An expression has no key exactly if it is blank or begins with its equals sign. -/
theorem Placeholder.key_eq_nil_iff {inner : Text} :
    (ofInner inner).key = [] ↔ trim inner = [] ∨ ∃ entry, trim inner = '=' :: entry := by
  rw [ofInner]
  cases hc : cutAt '=' (trim inner) with
  | none =>
    have he : ¬ ∃ entry, trim inner = '=' :: entry := by
      rintro ⟨entry, h⟩
      rw [h] at hc
      cases hc
    simp [he]
  | some p =>
    obtain ⟨label, entry⟩ := p
    obtain ⟨-, hs⟩ := cutAt_eq_some_iff.1 hc
    rw [hs]
    simp only [key_ofEntry]
    cases label with
    | nil => exact iff_of_true rfl (Or.inr ⟨entry, rfl⟩)
    | cons c label =>
      -- the label begins where the trimmed text does, so it is not blank
      have hb : isBlankChar c = false := isBlankChar_of_trim_eq_cons hs
      have hl : trim (c :: label) ≠ [] := by
        rw [ne_eq, ← isBlank_iff_trim, isBlank, List.all_cons, hb]
        exact Bool.false_ne_true
      have hne : c ≠ '=' := by
        rintro rfl
        rw [hs] at hc
        cases hc
      simp [hl, hne]

namespace Warning

/-- The warning about an expression without a key. -/
def unkeyed (inner : Text) : Warning := if trim inner = [] then emptySlot else unlabelled inner

theorem ofInner_eq_ite (inner : Text) :
    ofInner inner = if (Placeholder.ofInner inner).key = [] then some (unkeyed inner) else none := by
  rw [ofInner, unkeyed]
  split
  · rename_i h
    rw [if_pos (key_eq_nil_iff.2 (Or.inl h)), if_pos h]
  · rename_i entry h
    rw [if_pos (key_eq_nil_iff.2 (Or.inr ⟨entry, h⟩)), h, if_neg (List.cons_ne_nil _ _)]
  · rename_i hn he
    have hk : (Placeholder.ofInner inner).key ≠ [] := by
      intro hk
      obtain h | ⟨entry, h⟩ := key_eq_nil_iff.1 hk
      · exact hn h
      · exact he entry h
    rw [if_neg hk]

theorem filterMap_ofInner (inners : List Text) :
    inners.filterMap ofInner =
      (inners.filter fun inner => (Placeholder.ofInner inner).key = []).map unkeyed := by
  induction inners with
  | nil => rfl
  | cons inner inners ih =>
    by_cases h : (Placeholder.ofInner inner).key = []
    · simpa [ofInner_eq_ite, h] using ih
    · simpa [ofInner_eq_ite, h] using ih

theorem ofText_eq_none_iff {s : Text} : ofText s = none ↔ s.count '[' = s.count ']' := by
  rw [ofText]
  split_ifs with h <;> simp [h]

end Warning

namespace Template

variable {s : Text}

theorem warnings_eq_append (s : Text) :
    warnings s = (Warning.ofText s).toList ++
      ((ofText s).expressions.filter fun inner => (ofInner inner).key = []).map Warning.unkeyed := by
  rw [warnings, Warning.filterMap_ofInner]

theorem filter_key_eq_nil_iff {inners : List Text} :
    (inners.filter fun inner => (ofInner inner).key = []) = [] ↔
      ∀ inner ∈ inners, (ofInner inner).key ≠ [] := by
  simp [List.filter_eq_nil_iff]

theorem warnings_eq_nil_iff :
    warnings s = [] ↔
      s.count '[' = s.count ']' ∧ ∀ inner ∈ (ofText s).expressions, (ofInner inner).key ≠ [] := by
  rw [warnings_eq_append, List.append_eq_nil_iff, Option.toList_eq_nil_iff,
    Warning.ofText_eq_none_iff, List.map_eq_nil_iff, filter_key_eq_nil_iff]

/-- Every expression has a key if no warning is about one of them. -/
theorem forall_key_ne_nil (h : ∀ w ∈ warnings s, ∃ opening closing, w = .unbalanced opening closing) :
    ∀ inner ∈ (ofText s).expressions, (ofInner inner).key ≠ [] := by
  intro inner hi hk
  have hw : Warning.unkeyed inner ∈ warnings s := by
    rw [warnings_eq_append]
    exact List.mem_append_right _ (List.mem_map_of_mem (List.mem_filter.2 ⟨hi, by simp [hk]⟩))
  obtain ⟨opening, closing, he⟩ := h _ hw
  rw [Warning.unkeyed] at he
  split_ifs at he

theorem length_placeholders_eq_iff {t : Template}
    (h : ∀ inner ∈ t.expressions, (ofInner inner).key ≠ []) :
    t.expressions.length = t.placeholders.length ↔
      (t.expressions.map fun inner => (ofInner inner).key).Nodup := by
  have hf : ((t.expressions.map ofInner).filter fun p => p.key ≠ []) = t.expressions.map ofInner := by
    rw [List.filter_eq_self]
    simpa using h
  have hk : (t.expressions.map fun inner => (ofInner inner).key) =
      (t.expressions.map ofInner).map key := by
    rw [List.map_map]
    rfl
  rw [placeholders, hf, hk, ← length_distinct_eq_iff, List.length_map, eq_comm]

/-- **Warnings and placeholders agree.**  The messages are the one about unequal numbers of
    brackets, if they are unequal, and one for each expression without a key, in order.  So there
    are none exactly if the numbers agree and every expression has a key; and if none is about
    an expression, then all keys are asked for, by as many placeholders as there are
    expressions exactly if no key is repeated. -/
theorem map_message_warnings (s : Text) :
    (warnings s).map Warning.message =
        (if s.count '[' = s.count ']' then []
          else ["Unbalanced brackets: ".toList ++ decimal (s.count '[') ++ " × '[' vs. ".toList ++
            decimal (s.count ']') ++ " × ']'".toList]) ++
          (((ofText s).expressions.filter fun inner => (ofInner inner).key = []).map fun inner =>
            if trim inner = [] then "Empty placeholder found: []".toList
            else "Placeholder without label: ".toList ++ bracketed inner) ∧
      (warnings s = [] ↔
        s.count '[' = s.count ']' ∧ ∀ inner ∈ (ofText s).expressions, (ofInner inner).key ≠ []) ∧
      ((∀ w ∈ warnings s, ∃ opening closing, w = .unbalanced opening closing) →
        (∀ inner ∈ (ofText s).expressions, (ofInner inner).key ∈ (ofText s).placeholders.map key) ∧
          ((ofText s).expressions.length = (ofText s).placeholders.length ↔
            ((ofText s).expressions.map fun inner => (ofInner inner).key).Nodup)) := by
  refine ⟨?_, warnings_eq_nil_iff, fun h => ?_⟩
  · rw [warnings_eq_append, List.map_append, List.map_map]
    congr 1
    · rw [Warning.ofText]
      split_ifs <;> rfl
    · refine List.map_congr_left fun inner _ => ?_
      rw [Function.comp_apply, Warning.unkeyed]
      split_ifs <;> rfl
  · have hk := forall_key_ne_nil h
    refine ⟨fun inner hi => ?_, length_placeholders_eq_iff hk⟩
    exact mem_map_key_placeholders_iff.2 ⟨hk inner hi, inner, hi, rfl⟩

end Template

end PromptFill
