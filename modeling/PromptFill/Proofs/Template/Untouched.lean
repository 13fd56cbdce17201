/-
  The form that nobody has touched.

  A form starts with the default of the first expression of each key, and what it starts with
  counts as entered.  So the first default of a key, if there is one, is put in the place of all
  expressions with the key, also of those that have another default (`resolve_initial`).
  `segments_initial_eq_iff` says when this makes no difference to leaving all values out.
-/
import PromptFill.Proofs.Table
import PromptFill.Proofs.Template.Keys
import PromptFill.Proofs.Template.Rendering
import PromptFill.Template.Form

namespace PromptFill

open Placeholder Text

/-! ## The values a form starts with -/

theorem Form.initialValue_ofInner (inner : Text) :
    Form.initialValue (ofInner inner) = (ofInner inner).defaultValue := by
  have hentry (key entry : Text) :
      Form.initialValue (ofEntry key entry) = (ofEntry key entry).defaultValue := by
    unfold ofEntry
    split_ifs <;> rfl
  obtain ⟨-, h⟩ | ⟨label, entry, -, -, h⟩ := ofInner_cases inner
  · rw [h]
    rfl
  · rw [h, hentry]

namespace Template

variable {t : Template}

theorem get?_initial_eq_some_iff {key : Text} {w : Option Text} :
    (Form.initial t.placeholders).get? key = some w ↔
      key ≠ [] ∧ ∃ first, t.first? key = some first ∧ w = some (ofInner first).defaultValue := by
  have hkeys : Table.keys (t.placeholders.map fun p => (p.key, some (Form.initialValue p))) =
      t.placeholders.map Placeholder.key := List.map_map
  have hnodup : (Table.keys
      (t.placeholders.map fun p => (p.key, some (Form.initialValue p)))).Nodup := by
    rw [hkeys]
    exact nodup_map_key_distinct _
  rw [Form.initial, Table.ofList_of_nodup hnodup, Table.get?_eq_some_iff hnodup, List.mem_map]
  constructor
  · rintro ⟨p, hp, he⟩
    obtain ⟨hk, first, hf, rfl⟩ := mem_placeholders_iff.1 hp
    obtain ⟨rfl, rfl⟩ := Prod.mk.inj he
    exact ⟨hk, first, hf, by rw [Form.initialValue_ofInner]⟩
  · rintro ⟨hk, first, hf, rfl⟩
    obtain rfl := key_of_first? hf
    refine ⟨ofInner first, mem_placeholders_iff.2 ⟨hk, first, hf, rfl⟩, ?_⟩
    rw [Form.initialValue_ofInner]

/-- The default of the first expression with a key. -/
def firstDefault (t : Template) (key : Text) : Text :=
  ((t.first? key).map fun first => (ofInner first).defaultValue).getD []

theorem firstDefault_of_first? {key first : Text} (h : t.first? key = some first) :
    t.firstDefault key = (ofInner first).defaultValue := by
  rw [firstDefault, h]
  rfl

theorem live?_initial_eq_some_iff {key w : Text} :
    (Form.initial t.placeholders).live? key = some w ↔
      key ≠ [] ∧ t.firstDefault key ≠ [] ∧ w = t.firstDefault key := by
  rw [Values.live?_eq_some_iff, get?_initial_eq_some_iff]
  have hblank (first : Text) :
      isBlank (ofInner first).defaultValue = false ↔ (ofInner first).defaultValue ≠ [] := by
    rw [← Bool.not_eq_true, isBlank_iff_trim, trim_defaultValue]
  cases hf : t.first? key with
  | none => simp [firstDefault, hf]
  | some first =>
    rw [firstDefault_of_first? hf]
    constructor
    · rintro ⟨⟨hk, _, ⟨⟩, ⟨⟩⟩, hb⟩
      exact ⟨hk, (hblank first).1 hb, rfl⟩
    · rintro ⟨hk, hne, rfl⟩
      exact ⟨⟨hk, first, rfl, rfl⟩, (hblank first).2 hne⟩

/-! ## What the form makes of a template -/

/-- What an expression becomes in the untouched form: the default of the first expression with its
    key, if it has a key and that default is not empty, and else its own default. -/
def untouched (t : Template) (inner : Text) : Text :=
  if (ofInner inner).key ≠ [] ∧ t.firstDefault (ofInner inner).key ≠ [] then
    t.firstDefault (ofInner inner).key
  else (ofInner inner).defaultValue

theorem resolve_initial (inner : Text) :
    (ofInner inner).resolve (Form.initial t.placeholders) = t.untouched inner := by
  rw [untouched]
  split_ifs with h
  · exact resolve_of_live (live?_initial_eq_some_iff.2 ⟨h.1, h.2, rfl⟩)
  · refine resolve_of_not_live (Option.eq_none_iff_forall_ne_some.2 fun w hw => h ?_)
    obtain ⟨hk, hne, -⟩ := live?_initial_eq_some_iff.1 hw
    exact ⟨hk, hne⟩

theorem untouched_eq_defaultValue_iff {inner : Text} :
    t.untouched inner = (ofInner inner).defaultValue ↔
      ((ofInner inner).key ≠ [] → t.firstDefault (ofInner inner).key = [] ∨
        t.firstDefault (ofInner inner).key = (ofInner inner).defaultValue) := by
  rw [untouched]
  split_ifs with h
  · exact ⟨fun he _ => .inr he, fun hor => (hor h.1).resolve_left h.2⟩
  · refine iff_of_true rfl fun hk => .inl ?_
    by_contra hne
    exact h ⟨hk, hne⟩

/-- **When an untouched form changes nothing.**  A template shows in the same way with the values
    that its form starts with as without values exactly if for every expression with a key, the
    first expression with the key has no default or the same default.  With the values of the
    form, an expression with a key is replaced by the default of the first one if that is not
    empty and by its own default otherwise, and one without a key by its own. -/
theorem segments_initial_eq_iff (s : Text) :
    ((ofText s).segments (Form.initial (ofText s).placeholders) = (ofText s).segments [] ↔
        ∀ inner ∈ (ofText s).expressions, (ofInner inner).key ≠ [] →
          ∃ first, (ofText s).first? (ofInner inner).key = some first ∧
            ((ofInner first).defaultValue = [] ∨
              (ofInner first).defaultValue = (ofInner inner).defaultValue)) ∧
      (ofText s).fill (Form.initial (ofText s).placeholders) =
        (ofText s).substitute (ofText s).untouched ∧
      ∀ inner ∈ (ofText s).expressions,
        ((ofInner inner).key = [] → (ofText s).untouched inner = (ofInner inner).defaultValue) ∧
          ((ofInner inner).key ≠ [] →
            ∃ first, (ofText s).first? (ofInner inner).key = some first ∧
              (ofText s).untouched inner = if (ofInner first).defaultValue ≠ [] then
                (ofInner first).defaultValue else (ofInner inner).defaultValue) := by
  refine ⟨?_, substitute_congr fun inner _ => resolve_initial inner, fun inner hi => ⟨fun hk => ?_,
    fun hk => ?_⟩⟩
  · rw [segments_eq_iff]
    refine forall₂_congr fun inner hi => ?_
    obtain ⟨first, hf⟩ := exists_first? hi
    rw [resolve_initial, resolve_of_not_live rfl, untouched_eq_defaultValue_iff,
      firstDefault_of_first? hf]
    simp [hf]
  · simp [untouched, hk]
  · obtain ⟨first, hf⟩ := exists_first? hi
    refine ⟨first, hf, ?_⟩
    rw [untouched, firstDefault_of_first? hf]
    simp [hk]

end Template

end PromptFill
