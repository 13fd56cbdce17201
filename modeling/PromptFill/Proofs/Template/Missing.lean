/-
  Missing keys and the gaps of the preview.

  A gap is an expression that is replaced by nothing.  Its key is not always missing: the form
  knows one default for each key, that of the first expression, and a later expression with the
  same key may give none (`repeated_key_not_missing`).  `mem_missing_iff_first` says which gaps
  the missing keys stand for: those that are the first of their key.
-/
import PromptFill.Proofs.Template.Keys
import PromptFill.Proofs.Template.Rendering
import PromptFill.Template.Form

namespace PromptFill

open Placeholder

/-! ## Slots that resolve to nothing -/

theorem Placeholder.resolve_eq_nil_iff {inner : Text} {v : Values} :
    (ofInner inner).resolve v = [] ↔
      v.live? (ofInner inner).key = none ∧ (ofInner inner).defaultValue = [] := by
  cases hl : v.live? (ofInner inner).key with
  | none => simp [resolve_of_not_live hl]
  | some w =>
    have hw := (Values.live?_eq_some_iff.1 hl).2
    rw [resolve_of_live hl]
    simp only [reduceCtorEq, false_and, iff_false]
    rintro rfl
    cases hw

theorem Form.isMissing_ofInner {inner : Text} {v : Values} :
    Form.isMissing v (ofInner inner) = true ↔ (ofInner inner).resolve v = [] := by
  have hd : Text.isBlank (ofInner inner).defaultValue = true ↔ (ofInner inner).defaultValue = [] := by
    rw [Text.isBlank_iff_trim, trim_defaultValue]
  rw [resolve_eq_nil_iff, Form.isMissing, Bool.and_eq_true, Option.isNone_iff_eq_none, hd]

/-- What is missing depends on the live values of the keys only. -/
theorem Form.missing_congr {ps : List Placeholder} {v v' : Values}
    (h : ∀ p ∈ ps, v.live? p.key = v'.live? p.key) : Form.missing ps v = Form.missing ps v' := by
  rw [Form.missing, Form.missing]
  congr 1
  refine List.filter_congr fun p hp => ?_
  rw [Form.isMissing, Form.isMissing, h p hp]

namespace Template

variable {t : Template} {v : Values}

/-- The expressions that are replaced by nothing. -/
def gaps (t : Template) (v : Values) : List Text :=
  t.expressions.filter fun inner => (ofInner inner).resolve v = []

theorem mem_gaps {inner : Text} :
    inner ∈ t.gaps v ↔ inner ∈ t.expressions ∧ (ofInner inner).resolve v = [] := by
  simp [gaps]

/-- The gaps are the placeholder segments that show as unfilled. -/
theorem filter_isGap_segments (t : Template) (v : Values) :
    (t.segments v).filter Segment.isGap = (t.gaps v).map fun inner =>
      { text := bracketed (ofInner inner).key, isPlaceholder := true } := by
  have hgap : (t.segments v).filter Segment.isGap =
      (t.expressions.map (Segment.ofInner v)).filter fun seg => !seg.isFilled := by
    rw [← filter_isPlaceholder_segments, List.filter_filter]
    congr 1
    funext seg
    exact Bool.and_comm _ _
  rw [hgap, gaps]
  induction t.expressions with
  | nil => rfl
  | cons inner inners ih =>
    by_cases h : (ofInner inner).resolve v = []
    · simpa [Segment.ofInner_of_resolve_eq_nil h, h] using ih
    · simpa [Segment.ofInner_of_resolve_ne_nil h, h] using ih

/-! ## Missing keys -/

theorem mem_missing_iff {key : Text} :
    key ∈ Form.missing t.placeholders v ↔
      key ≠ [] ∧ ∃ first, t.first? key = some first ∧ (ofInner first).resolve v = [] := by
  simp only [Form.missing, List.mem_map, List.mem_filter, mem_placeholders_iff]
  constructor
  · rintro ⟨p, ⟨⟨hk, first, hf, rfl⟩, hm⟩, rfl⟩
    exact ⟨hk, first, hf, Form.isMissing_ofInner.1 hm⟩
  · rintro ⟨hk, first, hf, hr⟩
    obtain rfl := key_of_first? hf
    exact ⟨ofInner first, ⟨⟨hk, first, hf, rfl⟩, Form.isMissing_ofInner.2 hr⟩, rfl⟩

/-- The key of a gap has no live value, so that the default of its first expression decides. -/
theorem mem_missing_of_gap_iff {inner first : Text} (hg : inner ∈ t.gaps v)
    (hk : (ofInner inner).key ≠ []) (hf : t.first? (ofInner inner).key = some first) :
    (ofInner inner).key ∈ Form.missing t.placeholders v ↔ (ofInner first).defaultValue = [] := by
  have hl := (resolve_eq_nil_iff.1 (mem_gaps.1 hg).2).1
  rw [mem_missing_iff, hf]
  simp [hk, resolve_eq_nil_iff, key_of_first? hf, hl]

/-- **Missing keys stand for gaps.**  A key is missing exactly if it is not empty and its first
    expression is a gap.  So the key of a gap is missing unless the first expression with the
    key gives a default, and if no key is missing, then the first expressions of all keys are
    filled.  The gaps are what the annotated preview shows as unfilled. -/
theorem mem_missing_iff_first (s : Text) (v : Values) :
    (∀ key, key ∈ Form.missing (ofText s).placeholders v ↔
        key ≠ [] ∧ ∃ first ∈ (ofText s).gaps v, (ofText s).first? key = some first) ∧
      (∀ inner ∈ (ofText s).gaps v, (ofInner inner).key ≠ [] →
        ((ofInner inner).key ∈ Form.missing (ofText s).placeholders v ↔
          ∀ first, (ofText s).first? (ofInner inner).key = some first →
            (ofInner first).defaultValue = [])) ∧
      ((ofText s).segments v).filter Segment.isGap = ((ofText s).gaps v).map fun inner =>
        { text := bracketed (ofInner inner).key, isPlaceholder := true } := by
  refine ⟨fun key => ?_, fun inner hg hk => ?_, filter_isGap_segments _ v⟩
  · rw [mem_missing_iff]
    refine and_congr_right fun _ => ⟨?_, ?_⟩
    · rintro ⟨first, hf, hr⟩
      exact ⟨first, mem_gaps.2 ⟨mem_of_first? hf, hr⟩, hf⟩
    · rintro ⟨first, hg, hf⟩
      exact ⟨first, hf, (mem_gaps.1 hg).2⟩
  · obtain ⟨first, hf⟩ := exists_first? (mem_gaps.1 hg).1
    rw [mem_missing_of_gap_iff hg hk hf]
    simp [hf]

/-- In `[a=x][a]` without values the second expression is a gap, and yet no key is missing. -/
theorem repeated_key_not_missing :
    ¬ ∀ key, key ∈ Form.missing (ofText "[a=x][a]".toList).placeholders [] ↔
      key ≠ [] ∧ ∃ inner ∈ (ofText "[a=x][a]".toList).gaps [], (ofInner inner).key = key := by
  have ht : ofText "[a=x][a]".toList = ⟨[⟨[], "a=x".toList⟩, ⟨[], ['a']⟩], []⟩ :=
    Canonical.ofText_text (t := ⟨[⟨[], "a=x".toList⟩, ⟨[], ['a']⟩], []⟩)
      ⟨by decide, by decide, by decide⟩
  intro h
  have ha := (h ['a']).2 ⟨by decide, ['a'], by rw [ht]; decide, by decide⟩
  rw [ht] at ha
  exact absurd ha (by decide)

end Template

end PromptFill
