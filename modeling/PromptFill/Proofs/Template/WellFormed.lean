/-
  The placeholders that a template asks for are well formed.

  What stands between two brackets is read as a key, and as choices or a default that go with
  the kind of input (`WellFormed`).  `wellFormed_ofEntry` says so of what follows an equals sign:
  the kind is decided by the entry before it is trimmed at its start, and yet a default of several
  lines is never empty, since the entry does not end in a blank.

  `placeholders_wellFormed` puts this together with which placeholders there are, and in which
  order.
-/
import PromptFill.Proofs.Template.Written

namespace PromptFill

open Text

namespace Placeholder

/-! ## Well-formed placeholders -/

/-- A placeholder with a key, in which choices or a default go with its kind. -/
structure WellFormed (p : Placeholder) : Prop where
  key : IsPart '=' p.key
  options_iff : p.options ≠ [] ↔ p.kind = .dropdown
  dropdown : p.kind = .dropdown → p.defaultValue = [] ∧
    ∃ cs, p.options = [] :: cs ∧ 2 ≤ cs.length ∧ ∀ c ∈ cs, IsPart ',' c
  text : p.kind = .text →
    trim p.defaultValue = p.defaultValue ∧ p.defaultValue.length ≤ 60 ∧ '\n' ∉ p.defaultValue
  multiline : p.kind = .multiline → trim p.defaultValue = p.defaultValue ∧ p.defaultValue ≠ []
  not_closing : ']' ∉ p.defaultValue

theorem isPart_of_mem_choices {entry c : Text} (hs : ']' ∉ entry)
    (ha : areChoices (choices entry) = true) (hc : c ∈ choices entry) : IsPart ',' c := by
  rw [areChoices, Bool.and_eq_true, List.all_eq_true] at ha
  have hne : c ≠ [] := of_decide_eq_true (ha.2 c hc)
  obtain ⟨part, hpart, rfl⟩ := List.mem_map.1 hc
  exact ⟨hne, trim_trim part, fun h => not_mem_of_mem_splitOn hpart (mem_of_mem_trim h),
    fun h => hs (subset_of_mem_splitOn hpart (mem_of_mem_trim h))⟩

theorem wellFormed_of_key {key : Text} (hk : IsPart '=' key) : WellFormed { key } :=
  ⟨hk, by simp, by rintro ⟨⟩, fun _ => ⟨rfl, Nat.zero_le _, List.not_mem_nil⟩,
    by rintro ⟨⟩, List.not_mem_nil⟩

/-- The entry is what follows the equals sign, without the blanks at its end. -/
theorem wellFormed_ofEntry {key entry : Text} (hk : IsPart '=' key) (hs : ']' ∉ entry) :
    WellFormed (ofEntry key (trimEnd entry)) := by
  have hend : ']' ∉ trimEnd entry := fun h => hs (mem_of_mem_trimEnd h)
  have hdefault : ']' ∉ trim (trimEnd entry) := fun h => hend (mem_of_mem_trim h)
  rw [ofEntry]
  split_ifs with hchoices hlong
  · have hlen : 2 ≤ (choices (trimEnd entry)).length := by
      rw [areChoices, Bool.and_eq_true] at hchoices
      exact of_decide_eq_true hchoices.1
    refine ⟨hk, by simp, fun _ => ⟨rfl, _, rfl, hlen, fun c hc => ?_⟩, by rintro ⟨⟩,
      by rintro ⟨⟩, List.not_mem_nil⟩
    exact isPart_of_mem_choices hend hchoices hc
  · -- an entry that is long or has several lines is not empty
    have hne : trimEnd entry ≠ [] := by
      intro h
      rw [h] at hlong
      exact absurd hlong (by decide)
    refine ⟨hk, by simp, by rintro ⟨⟩, by rintro ⟨⟩, fun _ => ⟨trim_trim _, ?_⟩,
      hdefault⟩
    exact fun h => hne (trim_trimEnd_eq_nil_iff.1 h)
  · rw [not_or, Nat.not_lt] at hlong
    refine ⟨hk, by simp, by rintro ⟨⟩, fun _ => ⟨trim_trim _, ?_, fun h => ?_⟩,
      by rintro ⟨⟩, hdefault⟩
    · exact (length_trim_le _).trans hlong.1
    · exact hlong.2 (mem_of_mem_trim h)

theorem not_equals_of_mem_key (inner : Text) : '=' ∉ (ofInner inner).key := by
  obtain ⟨hno, h⟩ | ⟨label, entry, hno, -, h⟩ := ofInner_cases inner
  · rw [h]
    exact fun hm => hno (mem_of_mem_trim hm)
  · rw [h, key_ofEntry]
    exact fun hm => hno (mem_of_mem_trim hm)

/-- What is read from between two brackets is well formed, if it has a key. -/
theorem wellFormed_ofInner {inner : Text} (hi : ']' ∉ inner) (hk : (ofInner inner).key ≠ []) :
    WellFormed (ofInner inner) := by
  have hkey : IsPart '=' (ofInner inner).key :=
    ⟨hk, trim_key inner, not_equals_of_mem_key inner, fun h => hi (mem_of_mem_key h)⟩
  obtain ⟨-, h⟩ | ⟨label, entry, -, rfl, h⟩ := ofInner_cases inner
  · rw [h] at hkey ⊢
    exact wellFormed_of_key hkey
  · rw [h, key_ofEntry] at hkey
    rw [h]
    exact wellFormed_ofEntry hkey fun hm =>
      hi (List.mem_append_right _ (List.mem_cons_of_mem '=' hm))

end Placeholder

namespace Template

open Placeholder

/-- **What a template asks for.**  There is one placeholder for each key of an expression that is
    not empty: what the first expression with the key is read as.  They stand in the order of
    these first expressions, and all of them are well formed. -/
theorem placeholders_wellFormed (s : Text) :
    ((ofText s).placeholders.map key).Nodup ∧
      (∀ k, k ∈ (ofText s).placeholders.map key ↔
        k ≠ [] ∧ ∃ inner ∈ (ofText s).expressions, (ofInner inner).key = k) ∧
      (∀ p, p ∈ (ofText s).placeholders ↔ p.key ≠ [] ∧ ∃ inner,
        ((ofText s).expressions.find? fun inner => (ofInner inner).key = p.key) = some inner ∧
          ofInner inner = p) ∧
      ((ofText s).placeholders.Pairwise fun p q =>
        ((ofText s).expressions.map fun inner => (ofInner inner).key).idxOf p.key <
          ((ofText s).expressions.map fun inner => (ofInner inner).key).idxOf q.key) ∧
      ∀ p ∈ (ofText s).placeholders, WellFormed p := by
  have horder := pairwise_idxOf_distinct ((ofText s).expressions.map ofInner)
  rw [List.map_map] at horder
  refine ⟨nodup_map_key_distinct _, fun k => mem_map_key_placeholders_iff,
    fun p => mem_placeholders_iff, horder, fun p hp => ?_⟩
  obtain ⟨hk, inner, hfirst, rfl⟩ := mem_placeholders_iff.1 hp
  obtain ⟨slot, hslot, rfl⟩ := List.mem_map.1 (mem_of_first? hfirst)
  exact wellFormed_ofInner ((canonical_ofText s).inner slot hslot) hk

end Template

end PromptFill
