/-
  Placeholders in their written form.

  `Written p inner` says that `inner` is a way to write the placeholder `p` between brackets: the
  key alone, the key with a default, or the key with choices, blanks being allowed around the key
  and around each choice.  The placeholders that can be written so are the `Printable` ones.

  Reading undoes writing: `ofInner_of_written` for one placeholder, and for a whole template
  `placeholders_of_written`.
-/
import Mathlib.Data.List.Forall2
import PromptFill.Proofs.Template.Canonical
import PromptFill.Proofs.Template.Keys
import PromptFill.Proofs.Text.Parts

namespace PromptFill

open Text

/-! ## Lists in step -/

theorem map_eq_of_forall₂ {α β : Type} {R : α → β → Prop} {f : β → α} {xs : List α} {ys : List β}
    (h : List.Forall₂ R xs ys) (hf : ∀ x ∈ xs, ∀ y, R x y → f y = x) : ys.map f = xs := by
  induction h with
  | nil => rfl
  | cons hr _ ih =>
    rw [List.forall_mem_cons] at hf
    rw [List.map_cons, hf.1 _ hr, ih hf.2]

theorem forall_mem_of_forall₂ {α β : Type} {R : α → β → Prop} {P : β → Prop} {xs : List α}
    {ys : List β} (h : List.Forall₂ R xs ys) (hP : ∀ x ∈ xs, ∀ y, R x y → P y) :
    ∀ y ∈ ys, P y := by
  induction h with
  | nil => exact fun y hy => absurd hy List.not_mem_nil
  | cons hr _ ih =>
    rw [List.forall_mem_cons] at hP ⊢
    exact ⟨hP.1 _ hr, ih hP.2⟩

namespace Placeholder

/-! ## The written form -/

/-- A text that can be written next to the separator: it is not empty, has no blanks at its ends,
    and holds neither the separator nor a closing bracket. -/
structure IsPart (sep : Char) (s : Text) : Prop where
  ne_nil : s ≠ []
  trim_eq : trim s = s
  not_sep : sep ∉ s
  not_closing : ']' ∉ s

instance (sep : Char) (s : Text) : Decidable (IsPart sep s) :=
  decidable_of_iff (s ≠ [] ∧ trim s = s ∧ sep ∉ s ∧ ']' ∉ s)
    ⟨fun ⟨hn, ht, hs, hc⟩ => ⟨hn, ht, hs, hc⟩, fun ⟨hn, ht, hs, hc⟩ => ⟨hn, ht, hs, hc⟩⟩

/-- An entry that reads as choices: it has a comma, and none of its parts is blank. -/
def DropdownShaped (entry : Text) : Prop :=
  ',' ∈ entry ∧ ∀ part ∈ entry.splitOn ',', isBlank part = false

instance (entry : Text) : Decidable (DropdownShaped entry) :=
  inferInstanceAs (Decidable (_ ∧ _))

/-- A placeholder that can be written: a dropdown with two choices or more, or a default that
    does not read as choices and decides by its length and its lines what the kind is. -/
inductive Printable : Placeholder → Prop
  | dropdown {key cs} : IsPart '=' key → 2 ≤ cs.length → (∀ c ∈ cs, IsPart ',' c) →
      Printable { key, kind := .dropdown, options := [] :: cs }
  | plain {key d} {kind : Kind} : IsPart '=' key → trim d = d → ']' ∉ d → ¬ DropdownShaped d →
      kind = (if 60 < d.length ∨ '\n' ∈ d then .multiline else .text) →
      Printable { key, kind, defaultValue := d }

/-- The text with blanks around it. -/
def Padded (s padded : Text) : Prop :=
  ∃ w w', isBlank w = true ∧ isBlank w' = true ∧ padded = w ++ s ++ w'

/-- A way to write a placeholder between brackets. -/
inductive Written : Placeholder → Text → Prop
  | key {key label} : Padded key label → Written { key } label
  | entry {key label d} {kind : Kind} : Padded key label →
      Written { key, kind, defaultValue := d } (label ++ '=' :: d)
  | choices {key label cs parts} : Padded key label → List.Forall₂ Padded cs parts →
      Written { key, kind := .dropdown, options := [] :: cs } (label ++ '=' :: [','].intercalate parts)

theorem Padded.trim_eq {s padded : Text} (h : Padded s padded) : trim padded = trim s := by
  obtain ⟨w, w', hw, hw', rfl⟩ := h
  exact trim_padded hw hw' s

theorem Padded.not_mem {c : Char} {s padded : Text} (h : Padded s padded)
    (hc : isBlankChar c = false) (hs : c ∉ s) : c ∉ padded := by
  obtain ⟨w, w', hw, hw', rfl⟩ := h
  simp only [List.mem_append, not_or]
  exact ⟨⟨not_mem_of_isBlank hw hc, hs⟩, not_mem_of_isBlank hw' hc⟩

/-! ## Reading one placeholder -/

theorem areChoices_choices_iff {entry : Text} :
    areChoices (choices entry) = true ↔ DropdownShaped entry := by
  have hparts : (∀ part ∈ choices entry, part ≠ []) ↔
      ∀ part ∈ entry.splitOn ',', isBlank part = false := by
    simp only [choices, List.forall_mem_map, ne_eq, ← isBlank_iff_trim, Bool.not_eq_true]
  have hlen : 2 ≤ (choices entry).length ↔ ',' ∈ entry := by
    rw [choices, List.length_map, two_le_length_splitOn_iff]
  rw [DropdownShaped, ← hlen, ← hparts]
  simp [areChoices]

theorem choices_trimEnd (entry : Text) : choices (trimEnd entry) = choices entry := by
  obtain ⟨w, hw, he⟩ := exists_blank_trimEnd entry
  conv_rhs => rw [he]
  exact (map_trim_splitOn_append_blank (by decide) hw (trimEnd entry)).symm

/-- Written choices are read as they are. -/
theorem choices_intercalate {cs parts : List Text} (h : List.Forall₂ Padded cs parts)
    (hne : cs ≠ []) (hc : ∀ c ∈ cs, IsPart ',' c) :
    choices (trimEnd ([','].intercalate parts)) = cs := by
  have hparts : parts ≠ [] := by
    rintro rfl
    exact hne (List.forall₂_nil_right_iff.1 h)
  have hcomma : ∀ part ∈ parts, ',' ∉ part := forall_mem_of_forall₂ h fun c hm part hp =>
    hp.not_mem (by decide) (hc c hm).not_sep
  rw [choices_trimEnd, choices, List.splitOn_intercalate ',' hcomma hparts]
  exact map_eq_of_forall₂ h fun c hm part hp => hp.trim_eq.trans (hc c hm).trim_eq

/-- A placeholder is read back from each of its written forms. -/
theorem ofInner_of_written {p : Placeholder} {inner : Text} (hp : p.Printable)
    (hw : Written p inner) : ofInner inner = p := by
  cases hw with
  | key hl =>
    cases hp with
    | plain hk =>
      rw [ofInner_of_not_mem (hl.not_mem (by decide) hk.not_sep), hl.trim_eq, hk.trim_eq]
  | @entry key label d kind hl =>
    cases hp with
    | plain hk ht _ hs hm =>
      have hc : ¬ areChoices (choices d) = true := fun h => hs (areChoices_choices_iff.1 h)
      rw [ofInner_append_cons (hl.not_mem (by decide) hk.not_sep), hl.trim_eq, hk.trim_eq,
        trimEnd_of_trim_eq ht, ofEntry, if_neg hc, hm, ht, multilineThreshold]
      split_ifs <;> rfl
  | @choices key label cs parts hl hcs =>
    cases hp with
    | dropdown hk hlen hc =>
      have hne : cs ≠ [] := by
        rintro rfl
        exact absurd hlen (by decide)
      have ha : areChoices cs = true := by
        simp only [areChoices, Bool.and_eq_true, decide_eq_true_eq, List.all_eq_true]
        exact ⟨hlen, fun c hm => (hc c hm).ne_nil⟩
      rw [ofInner_append_cons (hl.not_mem (by decide) hk.not_sep), hl.trim_eq, hk.trim_eq,
        ofEntry, choices_intercalate hcs hne hc, if_pos ha]

theorem not_closing_of_written {p : Placeholder} {inner : Text} (hp : p.Printable)
    (hw : Written p inner) : ']' ∉ inner := by
  cases hw with
  | key hl =>
    cases hp with
    | plain hk => exact hl.not_mem (by decide) hk.not_closing
  | entry hl =>
    cases hp with
    | plain hk _ hd =>
      simp only [List.mem_append, List.mem_cons, not_or]
      exact ⟨hl.not_mem (by decide) hk.not_closing, by decide, hd⟩
  | choices hl hcs =>
    cases hp with
    | dropdown hk _ hc =>
      have hparts : ∀ part ∈ _, ']' ∉ part := forall_mem_of_forall₂ hcs fun c hm part hp =>
        hp.not_mem (by decide) (hc c hm).not_closing
      simp only [List.mem_append, List.mem_cons, not_or]
      exact ⟨hl.not_mem (by decide) hk.not_closing, by decide,
        not_mem_intercalate (by decide) hparts⟩

theorem Printable.key_ne_nil {p : Placeholder} (h : p.Printable) : p.key ≠ [] := by
  cases h with
  | dropdown hk => exact hk.ne_nil
  | plain hk => exact hk.ne_nil

end Placeholder

namespace Template

open Placeholder

/-! ## Reading a template -/

/-- **Reading undoes writing.**  A template with the written forms of placeholders between its
    brackets, and no other brackets that a reader could take for them, asks for exactly these
    placeholders. -/
theorem placeholders_of_written {ps : List Placeholder} {t : Template}
    (hp : ∀ p ∈ ps, p.Printable) (hd : (ps.map key).Nodup)
    (hw : List.Forall₂ Written ps t.expressions) (hl : ∀ slot ∈ t.slots, '[' ∉ slot.lead)
    (ht : ¬ HasPair t.tail) : (ofText t.text).placeholders = ps := by
  have hi : ∀ inner ∈ t.expressions, ']' ∉ inner := forall_mem_of_forall₂ hw fun p hm _ h =>
    not_closing_of_written (hp p hm) h
  have hc : t.Canonical := ⟨fun slot hm => hi slot.inner (List.mem_map_of_mem hm), hl, ht⟩
  have hps : t.expressions.map ofInner = ps := map_eq_of_forall₂ hw fun p hm _ h =>
    ofInner_of_written (hp p hm) h
  have hkeys : ps.filter (fun p => p.key ≠ []) = ps :=
    List.filter_eq_self.2 fun p hm => decide_eq_true (hp p hm).key_ne_nil
  rw [hc.ofText_text, placeholders, hps, hkeys, distinct_of_nodup hd]

theorem placeholders_of_written_mixed :
    let ps : List Placeholder :=
      [{ key := ['k', '[', ','] },
        { key := ['c'], kind := .dropdown, options := [[], ['x', '=', '1'], ['y', '\n', 'z']] },
        { key := ['m'], kind := .multiline, defaultValue := List.replicate 61 'a' },
        { key := ['d'], defaultValue := ['a', ',', ',', ' ', 'b'] }]
    let t : Template :=
      ⟨[⟨[']'], [' ', 'k', '[', ',', '\n']⟩,
        ⟨['x'], ['c', '\t', '=', '\u3000', 'x', '=', '1', ' ', ',', 'y', '\n', 'z', '\r']⟩,
        ⟨[], 'm' :: '=' :: List.replicate 61 'a'⟩,
        ⟨['\n'], ['d', '=', 'a', ',', ',', ' ', 'b']⟩], [']', '[']⟩
    (∀ p ∈ ps, p.Printable) ∧ (ps.map key).Nodup ∧ List.Forall₂ Written ps t.expressions ∧
      (∀ slot ∈ t.slots, '[' ∉ slot.lead) ∧ ¬ HasPair t.tail ∧ (ofText t.text).placeholders = ps := by
  intro ps t
  have hp : ∀ p ∈ ps, p.Printable := by
    simp only [ps, List.forall_mem_cons]
    refine ⟨?_, ?_, ?_, ?_, by simp⟩
    · exact .plain (by decide) rfl List.not_mem_nil (by decide) rfl
    · exact .dropdown (by decide) le_rfl (by decide)
    · exact .plain (by decide) (by decide) (by decide) (by decide) rfl
    · exact .plain (by decide) rfl (by decide) (by decide) rfl
  have hw : List.Forall₂ Written ps t.expressions := by
    have hk : Padded ['k', '[', ','] [' ', 'k', '[', ',', '\n'] := ⟨[' '], ['\n'], rfl, rfl, rfl⟩
    have hc : Padded ['c'] ['c', '\t'] := ⟨[], ['\t'], rfl, rfl, rfl⟩
    have hx : Padded ['x', '=', '1'] ['\u3000', 'x', '=', '1', ' '] :=
      ⟨['\u3000'], [' '], rfl, rfl, rfl⟩
    have hy : Padded ['y', '\n', 'z'] ['y', '\n', 'z', '\r'] := ⟨[], ['\r'], rfl, rfl, rfl⟩
    have hm : Padded ['m'] ['m'] := ⟨[], [], rfl, rfl, rfl⟩
    have hd : Padded ['d'] ['d'] := ⟨[], [], rfl, rfl, rfl⟩
    have hcs := Written.choices hc (.cons hx (.cons hy .nil))
    exact .cons (.key hk) (.cons hcs (.cons (@Written.entry _ _ (List.replicate 61 'a') _ hm)
      (.cons (@Written.entry _ _ ['a', ',', ',', ' ', 'b'] _ hd) .nil)))
  have hd : (ps.map key).Nodup := by decide
  have hl : ∀ slot ∈ t.slots, '[' ∉ slot.lead := by decide
  have ht : ¬ HasPair t.tail := by decide
  exact ⟨hp, hd, hw, hl, ht, placeholders_of_written hp hd hw hl ht⟩

end Template

end PromptFill
