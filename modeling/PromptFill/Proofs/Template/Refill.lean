/-
  Filling what was filled.

  The result of filling a template is a text, and may be taken for a template again.  The
  literal texts of a template never form an expression by themselves, whatever is inserted
  between them: `hasPair_substitute_iff` says that the result holds one exactly if an inserted
  text opens a bracket that is closed behind it.  Where none does, the result is inert, and
  this is so whenever neither the expressions nor their live values hold an opening bracket.
-/
import PromptFill.Proofs.Template.Canonical
import PromptFill.Proofs.Template.Placeholder

namespace PromptFill.Template

open Text

/-- With `f` of its expression in the place of each slot, an inserted text holds an opening
    bracket, and a closing one follows in the same text or anywhere behind it. -/
def Reopens (f : Text → Text) (t : Template) : Prop :=
  ∃ before slot behind a b, t.slots = before ++ slot :: behind ∧ f slot.inner = a ++ '[' :: b ∧
    ']' ∈ b ++ substitute f ⟨behind, t.tail⟩

/-- There is nothing to fill in the text: it stays as it is, whatever the values. -/
structure Inert (s : Text) : Prop where
  fill_eq : ∀ v, (ofText s).fill v = s
  preview_eq : ∀ v, (ofText s).preview v = s
  placeholders_eq : (ofText s).placeholders = []

theorem inert_of_not_hasPair {s : Text} (h : ¬ HasPair s) : Inert s := by
  have hs : ofText s = ⟨[], s⟩ := ofText_of_not_hasPair h
  refine ⟨fun v => ?_, fun v => ?_, ?_⟩ <;> rw [hs] <;> rfl

/-! ## Where expressions come from -/

theorem opens_append_iff {s rest : Text} :
    (∃ a b, s = a ++ '[' :: b ∧ ']' ∈ b ++ rest) ↔ HasPair s ∨ ('[' ∈ s ∧ ']' ∈ rest) := by
  constructor
  · rintro ⟨a, b, rfl, hm⟩
    rcases List.mem_append.1 hm with hb | hr
    · exact Or.inl ⟨a, b, rfl, hb⟩
    · exact Or.inr ⟨List.mem_append_right a List.mem_cons_self, hr⟩
  · rintro (⟨a, b, rfl, hb⟩ | ⟨ho, hr⟩)
    · exact ⟨a, b, rfl, List.mem_append_left rest hb⟩
    · obtain ⟨a, b, rfl⟩ := List.append_of_mem ho
      exact ⟨a, b, rfl, List.mem_append_right b hr⟩

theorem reopens_push {f : Text → Text} {s : Slot} {t : Template} :
    (push s t).Reopens f ↔
      (HasPair (f s.inner) ∨ ('[' ∈ f s.inner ∧ ']' ∈ t.substitute f)) ∨ t.Reopens f := by
  rw [← opens_append_iff]
  constructor
  · rintro ⟨_ | ⟨s', before⟩, slot, behind, a, b, hs, hf, hm⟩
    · obtain ⟨rfl, rfl⟩ := List.cons.inj hs
      exact Or.inl ⟨a, b, hf, hm⟩
    · obtain ⟨rfl, hs'⟩ := List.cons.inj hs
      exact Or.inr ⟨before, slot, behind, a, b, hs', hf, hm⟩
  · rintro (⟨a, b, hf, hm⟩ | ⟨before, slot, behind, a, b, hs, hf, hm⟩)
    · exact ⟨[], s, t.slots, a, b, rfl, hf, hm⟩
    · exact ⟨s :: before, slot, behind, a, b, congrArg (s :: ·) hs, hf, hm⟩

/-- The result of a substitution holds an expression exactly if an inserted text opens one. -/
theorem hasPair_substitute_iff {t : Template} (ht : t.Canonical) (f : Text → Text) :
    HasPair (t.substitute f) ↔ t.Reopens f := by
  induction t, ht using Canonical.induct with
  | tail s hs =>
    have hr : ¬ Reopens f ⟨[], s⟩ := by
      rintro ⟨before, slot, behind, a, b, hs, -⟩
      exact List.cons_ne_nil _ _ (List.append_eq_nil_iff.1 hs.symm).2
    simpa [substitute, hr] using hs
  | push s t hl hi ht ih =>
    -- the literal text in front has no opening bracket, so it opens nothing
    have hp := not_hasPair_of_not_mem hl
    rw [substitute_push, hasPair_append, hasPair_append, List.mem_append, reopens_push, ih]
    tauto

theorem exists_mem_of_reopens {f : Text → Text} {t : Template} (h : t.Reopens f) :
    ∃ inner ∈ t.expressions, '[' ∈ f inner := by
  obtain ⟨before, slot, behind, a, b, hs, hf, -⟩ := h
  refine ⟨slot.inner, List.mem_map_of_mem ?_, ?_⟩
  · rw [hs]
    exact List.mem_append_right before List.mem_cons_self
  · rw [hf]
    exact List.mem_append_right a List.mem_cons_self

theorem mem_of_mem_shown {c : Char} {v : Values} {inner : Text} (hc : c ≠ '\x22')
    (h : c ∈ shown v inner) :
    c ∈ inner ∨ ∃ w, v.live? (Placeholder.ofInner inner).key = some w ∧ c ∈ w := by
  unfold shown at h
  dsimp only at h
  split_ifs at h
  · simp only [List.cons_append, List.mem_cons, List.mem_append, List.not_mem_nil, or_false, hc,
      false_or] at h
    exact Or.inl (Placeholder.mem_of_mem_key h)
  · exact Placeholder.mem_of_mem_resolve h

/-- **When filling again changes nothing.**  The filled text holds an expression exactly if an
    inserted text opens a bracket that is closed behind it, and the same is true of the
    preview.  Otherwise they are inert, and this is so if no expression and no live value of its
    key holds an opening bracket. -/
theorem hasSlots_iff_reopens (s : Text) (v : Values) :
    ((ofText ((ofText s).fill v)).hasSlots = true ↔
        (ofText s).Reopens fun inner => (Placeholder.ofInner inner).resolve v) ∧
      ((ofText ((ofText s).preview v)).hasSlots = true ↔ (ofText s).Reopens (shown v)) ∧
      ((¬ (ofText s).Reopens fun inner => (Placeholder.ofInner inner).resolve v) →
        Inert ((ofText s).fill v)) ∧
      (¬ (ofText s).Reopens (shown v) → Inert ((ofText s).preview v)) ∧
      ((∀ inner ∈ (ofText s).expressions, '[' ∉ inner ∧
          ∀ w, v.live? (Placeholder.ofInner inner).key = some w → '[' ∉ w) →
        (¬ (ofText s).Reopens fun inner => (Placeholder.ofInner inner).resolve v) ∧
          ¬ (ofText s).Reopens (shown v)) := by
  have hc := canonical_ofText s
  have hfill : HasPair ((ofText s).fill v) ↔
      (ofText s).Reopens fun inner => (Placeholder.ofInner inner).resolve v :=
    hasPair_substitute_iff hc _
  have hprev : HasPair ((ofText s).preview v) ↔ (ofText s).Reopens (shown v) :=
    hasPair_substitute_iff hc _
  refine ⟨hasSlots_ofText_iff.trans hfill, hasSlots_ofText_iff.trans hprev,
    fun h => inert_of_not_hasPair (mt hfill.1 h), fun h => inert_of_not_hasPair (mt hprev.1 h),
    fun h => ⟨fun hr => ?_, fun hr => ?_⟩⟩
  · obtain ⟨inner, hi, hm⟩ := exists_mem_of_reopens hr
    rcases Placeholder.mem_of_mem_resolve hm with hm | ⟨w, hw, hm⟩
    · exact (h inner hi).1 hm
    · exact (h inner hi).2 w hw hm
  · obtain ⟨inner, hi, hm⟩ := exists_mem_of_reopens hr
    rcases mem_of_mem_shown (by decide) hm with hm | ⟨w, hw, hm⟩
    · exact (h inner hi).1 hm
    · exact (h inner hi).2 w hw hm

end PromptFill.Template
