/-
  The one way to read a text as a template.

  A template is canonical if its brackets are the ones a reader finds: no expression holds a
  closing bracket, no literal text before a slot holds an opening one, and the tail holds no
  opening bracket with a closing one behind it.

  `ofText` reads canonical templates only (`canonical_ofText`), and every canonical template is
  read back from its text (`Canonical.ofText_text`).  Both rest on what `ofText` does at one
  slot (`ofText_append`) and where there is none (`ofText_of_not_hasPair`).
-/
import Mathlib.Tactic.Tauto
import PromptFill.Template.Fill

namespace PromptFill

/-! ## Pairs of brackets -/

/-- The text holds an opening bracket and, somewhere behind it, a closing one. -/
def Text.HasPair (s : Text) : Prop := ∃ a b, s = a ++ '[' :: b ∧ ']' ∈ b

namespace Text

theorem hasPair_cons {c : Char} {s : Text} :
    HasPair (c :: s) ↔ (c = '[' ∧ ']' ∈ s) ∨ HasPair s := by
  constructor
  · rintro ⟨_ | ⟨x, a⟩, b, h, hb⟩
    · obtain ⟨rfl, rfl⟩ := List.cons.inj h
      exact Or.inl ⟨rfl, hb⟩
    · obtain ⟨rfl, rfl⟩ := List.cons.inj h
      exact Or.inr ⟨a, b, rfl, hb⟩
  · rintro (⟨rfl, hs⟩ | ⟨a, b, rfl, hb⟩)
    · exact ⟨[], s, rfl, hs⟩
    · exact ⟨c :: a, b, rfl, hb⟩

instance decidableHasPair : ∀ s : Text, Decidable (HasPair s)
  | [] => isFalse (by rintro ⟨a, b, h, -⟩; simp at h)
  | c :: s =>
    have := decidableHasPair s
    decidable_of_iff ((c = '[' ∧ ']' ∈ s) ∨ HasPair s) hasPair_cons.symm

theorem hasPair_append {a b : Text} :
    HasPair (a ++ b) ↔ HasPair a ∨ ('[' ∈ a ∧ ']' ∈ b) ∨ HasPair b := by
  induction a with
  | nil => simp [HasPair]
  | cons c a ih =>
    rw [List.cons_append, hasPair_cons, hasPair_cons, ih, List.mem_append, List.mem_cons,
      eq_comm (a := '[')]
    tauto

theorem not_hasPair_of_not_mem {s : Text} (h : '[' ∉ s) : ¬ HasPair s := by
  rintro ⟨a, b, rfl, -⟩
  simp at h

end Text

namespace Template

open Text

theorem text_nil (s : Text) : text ⟨[], s⟩ = s := List.nil_append s

theorem hasPair_bracketed (inner : Text) : HasPair (bracketed inner) :=
  ⟨[], inner ++ [']'], rfl, by simp⟩

/-! ## Canonical templates -/

/-- A template whose brackets are the ones that a reader of its text finds. -/
structure Canonical (t : Template) : Prop where
  inner : ∀ s ∈ t.slots, ']' ∉ s.inner
  lead : ∀ s ∈ t.slots, '[' ∉ s.lead
  tail : ¬ HasPair t.tail

theorem canonical_nil {s : Text} : Canonical ⟨[], s⟩ ↔ ¬ HasPair s :=
  ⟨fun h => h.tail, fun h => ⟨by simp, by simp, h⟩⟩

theorem canonical_push {s : Slot} {t : Template} :
    (push s t).Canonical ↔ ('[' ∉ s.lead ∧ ']' ∉ s.inner) ∧ t.Canonical := by
  constructor
  · rintro ⟨hi, hl, ht⟩
    exact ⟨⟨hl s List.mem_cons_self, hi s List.mem_cons_self⟩,
      fun s' hs' => hi s' (List.mem_cons_of_mem s hs'),
      fun s' hs' => hl s' (List.mem_cons_of_mem s hs'), ht⟩
  · rintro ⟨⟨hl, hi⟩, ht⟩
    exact ⟨List.forall_mem_cons.2 ⟨hi, ht.inner⟩, List.forall_mem_cons.2 ⟨hl, ht.lead⟩, ht.tail⟩

/-- Templates are built from a tail by pushing slots in front. -/
@[elab_as_elim]
theorem pushInduct {motive : Template → Prop} (tail : ∀ s : Text, motive ⟨[], s⟩)
    (push : ∀ (s : Slot) (t : Template), motive t → motive (push s t)) : ∀ t : Template, motive t
  | ⟨[], s⟩ => tail s
  | ⟨s :: slots, e⟩ => push s ⟨slots, e⟩ (pushInduct tail push ⟨slots, e⟩)

/-- What is put in the place of slots depends on their expressions only. -/
theorem substitute_congr {f g : Text → Text} {t : Template}
    (h : ∀ inner ∈ t.expressions, f inner = g inner) : t.substitute f = t.substitute g := by
  induction t using pushInduct with
  | tail s => rfl
  | push s t ih =>
    obtain ⟨hs, ht⟩ := List.forall_mem_cons.1 h
    rw [substitute_push, substitute_push, hs, ih ht]

/-- Canonical templates are built so with slots whose brackets a reader finds. -/
@[elab_as_elim]
theorem Canonical.induct {motive : ∀ t : Template, t.Canonical → Prop}
    (tail : ∀ (s : Text) (hs : ¬ HasPair s), motive ⟨[], s⟩ (canonical_nil.2 hs))
    (push : ∀ (s : Slot) (t : Template) (hl : '[' ∉ s.lead) (hi : ']' ∉ s.inner) (ht : t.Canonical),
      motive t ht → motive (push s t) (canonical_push.2 ⟨⟨hl, hi⟩, ht⟩)) :
    ∀ (t : Template) (ht : t.Canonical), motive t ht
  | ⟨[], s⟩, ht => tail s (canonical_nil.1 ht)
  | ⟨s :: slots, e⟩, ht =>
    have h := canonical_push (s := s) (t := ⟨slots, e⟩).1 ht
    push s ⟨slots, e⟩ h.1.1 h.1.2 h.2 (Canonical.induct tail push ⟨slots, e⟩ h.2)

/-! ## Reading a text -/

theorem ofText_of_not_hasPair {s : Text} (h : ¬ HasPair s) : ofText s = ⟨[], s⟩ := by
  rw [ofText]
  split
  · rfl
  · rename_i lead rest h₁
    split
    · rfl
    · rename_i inner rest' h₂
      obtain ⟨-, rfl⟩ := cutAt_eq_some_iff.1 h₁
      obtain ⟨-, rfl⟩ := cutAt_eq_some_iff.1 h₂
      exact absurd ⟨lead, inner ++ ']' :: rest', rfl, by simp⟩ h

theorem ofText_append {lead inner : Text} (hl : '[' ∉ lead) (hi : ']' ∉ inner) (s : Text) :
    ofText (lead ++ bracketed inner ++ s) = push ⟨lead, inner⟩ (ofText s) := by
  have h₁ : cutAt '[' (lead ++ bracketed inner ++ s) = some (lead, inner ++ ']' :: s) :=
    cutAt_eq_some_iff.2 ⟨hl, by simp [bracketed]⟩
  have h₂ : cutAt ']' (inner ++ ']' :: s) = some (inner, s) := cutAt_eq_some_iff.2 ⟨hi, rfl⟩
  rw [ofText]
  split
  · rename_i h
    rw [h₁] at h
    cases h
  · rename_i lead' rest h
    rw [h₁] at h
    obtain ⟨rfl, rfl⟩ := Prod.mk.inj (Option.some.inj h)
    split
    · rename_i h'
      rw [h₂] at h'
      cases h'
    · rename_i inner' rest' h'
      rw [h₂] at h'
      obtain ⟨rfl, rfl⟩ := Prod.mk.inj (Option.some.inj h')
      rfl

/-- What `ofText` reads is canonical. -/
theorem canonical_ofText (s : Text) : (ofText s).Canonical := by
  fun_induction ofText s with
  | case1 s h =>
    exact canonical_nil.2 (not_hasPair_of_not_mem (cutAt_eq_none_iff.1 h))
  | case2 s lead rest h h' =>
    obtain ⟨hl, rfl⟩ := cutAt_eq_some_iff.1 h
    have hr : ']' ∉ rest := cutAt_eq_none_iff.1 h'
    refine canonical_nil.2 fun hp => ?_
    rw [hasPair_append, hasPair_cons] at hp
    rcases hp with hp | ⟨hm, -⟩ | ⟨-, hm⟩ | ⟨a, b, rfl, hm⟩
    · exact not_hasPair_of_not_mem hl hp
    · exact hl hm
    · exact hr hm
    · exact hr (List.mem_append_right a (List.mem_cons_of_mem '[' hm))
  | case3 s lead rest h inner rest' h' ih =>
    obtain ⟨hl, rfl⟩ := cutAt_eq_some_iff.1 h
    obtain ⟨hi, rfl⟩ := cutAt_eq_some_iff.1 h'
    exact canonical_push.2 ⟨⟨hl, hi⟩, ih⟩

/-- A canonical template is read back from its text. -/
theorem Canonical.ofText_text {t : Template} (h : t.Canonical) : ofText t.text = t := by
  induction t, h using Canonical.induct with
  | tail s hs => exact ofText_of_not_hasPair hs
  | push s t hl hi ht ih => rw [text_push, ofText_append hl hi, ih]

/-- A text has exactly one canonical template, the one that `ofText` reads. -/
theorem canonical_and_text_eq_iff {s : Text} {t : Template} :
    t.Canonical ∧ t.text = s ↔ t = ofText s := by
  constructor
  · rintro ⟨h, rfl⟩
    exact h.ofText_text.symm
  · rintro rfl
    exact ⟨canonical_ofText s, text_ofText s⟩

theorem Canonical.hasSlots_iff {t : Template} (h : t.Canonical) :
    t.hasSlots = true ↔ HasPair t.text := by
  induction t, h using Canonical.induct with
  | tail s hs =>
    rw [text_nil]
    exact iff_of_false Bool.false_ne_true hs
  | push s t hl hi ht _ =>
    have hp : HasPair (push s t).text := by
      rw [text_push, hasPair_append, hasPair_append]
      exact Or.inl (Or.inr (Or.inr (hasPair_bracketed s.inner)))
    exact iff_of_true rfl hp

/-- There is a slot exactly if an opening bracket has a closing one behind it. -/
theorem hasSlots_ofText_iff {s : Text} : (ofText s).hasSlots = true ↔ HasPair s := by
  rw [(canonical_ofText s).hasSlots_iff, text_ofText]

end Template

end PromptFill
