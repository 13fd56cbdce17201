/-
  What is read from the text between two brackets.

  `ofInner` trims first and cuts at the first equals sign afterwards.  `ofInner_cases` says what
  it reads by the cut of the untrimmed text: the key is what stands before the sign, trimmed, and
  the entry is what follows it without the blanks at its end.

  From it: key and default are trimmed (`trim_key`, `trim_defaultValue`), they hold no
  characters of their own (`mem_of_mem_key`, `mem_of_mem_defaultValue`), and what a slot
  resolves to is blank only if it is empty (`resolve_eq_nil_of_isBlank`).
-/
import PromptFill.Proofs.Text.Trim
import PromptFill.Template.Values

namespace PromptFill

open Text

namespace Placeholder

/-! ## Entries -/

@[simp]
theorem key_ofEntry (key entry : Text) : (ofEntry key entry).key = key := by
  unfold ofEntry
  split_ifs <;> rfl

theorem defaultValue_ofEntry (key entry : Text) :
    (ofEntry key entry).defaultValue = if areChoices (choices entry) then [] else trim entry := by
  unfold ofEntry
  split_ifs <;> rfl

theorem trim_defaultValue_ofEntry (key entry : Text) :
    trim (ofEntry key entry).defaultValue = (ofEntry key entry).defaultValue := by
  rw [defaultValue_ofEntry]
  split_ifs
  · rfl
  · exact trim_trim entry

theorem mem_of_mem_defaultValue_ofEntry {c : Char} {key entry : Text}
    (h : c ∈ (ofEntry key entry).defaultValue) : c ∈ entry := by
  rw [defaultValue_ofEntry] at h
  split_ifs at h
  · cases h
  · exact mem_of_mem_trim h

/-! ## Inner texts -/

theorem ofInner_of_not_mem {inner : Text} (h : '=' ∉ inner) :
    ofInner inner = { key := trim inner } := by
  have hc : cutAt '=' (trim inner) = none := cutAt_eq_none_iff.2 fun hm => h (mem_of_mem_trim hm)
  rw [ofInner, hc]

theorem ofInner_append_cons {label : Text} (h : '=' ∉ label) (entry : Text) :
    ofInner (label ++ '=' :: entry) = ofEntry (trim label) (trimEnd entry) := by
  have hc : cutAt '=' (trim (label ++ '=' :: entry)) = some (trimStart label, trimEnd entry) := by
    rw [trim_append_cons (by decide)]
    exact cutAt_eq_some_iff.2 ⟨fun hm => h (List.dropWhile_subset isBlankChar hm), rfl⟩
  rw [ofInner, hc]
  exact congrArg (ofEntry · (trimEnd entry)) (trim_trimStart label)

theorem ofInner_cases (inner : Text) :
    ('=' ∉ inner ∧ ofInner inner = { key := trim inner }) ∨
      ∃ label entry, '=' ∉ label ∧ inner = label ++ '=' :: entry ∧
        ofInner inner = ofEntry (trim label) (trimEnd entry) := by
  cases hc : cutAt '=' inner with
  | none =>
    have h := cutAt_eq_none_iff.1 hc
    exact Or.inl ⟨h, ofInner_of_not_mem h⟩
  | some p =>
    obtain ⟨label, entry⟩ := p
    obtain ⟨h, rfl⟩ := cutAt_eq_some_iff.1 hc
    exact Or.inr ⟨label, entry, h, rfl, ofInner_append_cons h entry⟩

theorem trim_key (inner : Text) : trim (ofInner inner).key = (ofInner inner).key := by
  obtain ⟨-, h⟩ | ⟨label, entry, -, -, h⟩ := ofInner_cases inner
  · rw [h]
    exact trim_trim inner
  · rw [h, key_ofEntry]
    exact trim_trim label

theorem trim_defaultValue (inner : Text) :
    trim (ofInner inner).defaultValue = (ofInner inner).defaultValue := by
  obtain ⟨-, h⟩ | ⟨label, entry, -, -, h⟩ := ofInner_cases inner
  · rw [h]
    rfl
  · rw [h]
    exact trim_defaultValue_ofEntry (trim label) (trimEnd entry)

theorem mem_of_mem_key {c : Char} {inner : Text} (hm : c ∈ (ofInner inner).key) : c ∈ inner := by
  obtain ⟨-, h⟩ | ⟨label, entry, -, rfl, h⟩ := ofInner_cases inner
  · rw [h] at hm
    exact mem_of_mem_trim hm
  · rw [h, key_ofEntry] at hm
    exact List.mem_append_left _ (mem_of_mem_trim hm)

theorem mem_of_mem_defaultValue {c : Char} {inner : Text}
    (hm : c ∈ (ofInner inner).defaultValue) : c ∈ inner := by
  obtain ⟨-, h⟩ | ⟨label, entry, -, rfl, h⟩ := ofInner_cases inner
  · rw [h] at hm
    cases hm
  · rw [h] at hm
    have he : c ∈ entry := mem_of_mem_trimEnd (mem_of_mem_defaultValue_ofEntry hm)
    exact List.mem_append_right _ (List.mem_cons_of_mem '=' he)

end Placeholder

/-! ## Live values -/

theorem Values.live?_eq_some_iff {v : Values} {key w : Text} :
    v.live? key = some w ↔ v.get? key = some (some w) ∧ isBlank w = false := by
  unfold Values.live?
  split
  · rename_i s h
    rw [h]
    cases hs : isBlank s with
    | true =>
      simp only [if_true, Option.some.injEq, reduceCtorEq, false_iff, not_and]
      rintro rfl
      rw [hs]
      exact Bool.noConfusion
    | false =>
      simp only [Bool.false_eq_true, if_false, Option.some.injEq]
      exact ⟨fun he => ⟨he, he ▸ hs⟩, fun he => he.1⟩
  · rename_i h
    simp only [reduceCtorEq, false_iff, not_and]
    exact fun he => absurd he (h w)

theorem Values.live?_congr {v v' : Values} {key : Text} (h : v.get? key = v'.get? key) :
    v.live? key = v'.live? key := by
  rw [Values.live?, Values.live?, h]

namespace Placeholder

theorem resolve_congr {p : Placeholder} {v v' : Values} (h : v.live? p.key = v'.live? p.key) :
    p.resolve v = p.resolve v' := by
  rw [resolve, resolve, h]

theorem resolve_of_live {p : Placeholder} {v : Values} {w : Text} (h : v.live? p.key = some w) :
    p.resolve v = w := by
  rw [resolve, h, Option.getD_some]

theorem resolve_of_not_live {p : Placeholder} {v : Values} (h : v.live? p.key = none) :
    p.resolve v = p.defaultValue := by
  rw [resolve, h, Option.getD_none]

/-- What a slot resolves to is blank only if it is empty: live values are not blank, and defaults
    are trimmed. -/
theorem resolve_eq_nil_of_isBlank {inner : Text} {v : Values}
    (h : isBlank ((ofInner inner).resolve v) = true) : (ofInner inner).resolve v = [] := by
  cases hl : v.live? (ofInner inner).key with
  | some w =>
    rw [resolve_of_live hl, (Values.live?_eq_some_iff.1 hl).2] at h
    cases h
  | none =>
    rw [resolve_of_not_live hl, ← trim_defaultValue] at h ⊢
    exact eq_nil_of_isBlank_trim h

theorem mem_of_mem_resolve {c : Char} {inner : Text} {v : Values}
    (hm : c ∈ (ofInner inner).resolve v) :
    c ∈ inner ∨ ∃ w, v.live? (ofInner inner).key = some w ∧ c ∈ w := by
  cases hl : v.live? (ofInner inner).key with
  | some w =>
    rw [resolve_of_live hl] at hm
    exact Or.inr ⟨w, rfl, hm⟩
  | none =>
    rw [resolve_of_not_live hl] at hm
    exact Or.inl (mem_of_mem_defaultValue hm)

end Placeholder

end PromptFill
