/-
  Prompt templates as literal text with slots.

  A template is `L₀ [I₁] L₁ … [Iₙ] Lₙ`: each slot has the literal text before it and the
  text between its brackets, and a literal tail follows the last one.  `ofText` takes a text
  apart: a slot begins at the first opening bracket and ends at the nearest closing one,
  and the next slot is looked for behind it.  An opening bracket that is never closed is
  literal text, and so is a closing one outside of a slot.

  `text` puts a template together again; `substitute` does so with other texts in the
  place of the slots.  `text_ofText` says that taking apart loses nothing.
-/
import PromptFill.Text.Basic

namespace PromptFill

/-- A bracket expression with the literal text before it. -/
structure Slot where
  lead : Text
  inner : Text
deriving DecidableEq, Repr

/-- A template: its slots in order and the literal text after the last. -/
structure Template where
  slots : List Slot
  tail : Text
deriving DecidableEq, Repr

namespace Template

/-- The template with one more slot in front. -/
def push (s : Slot) (t : Template) : Template := { t with slots := s :: t.slots }

/-- The template that a text is. -/
def ofText (s : Text) : Template :=
  match _h : Text.cutAt '[' s with
  | none => ⟨[], s⟩
  | some (lead, rest) =>
    match _h' : Text.cutAt ']' rest with
    | none => ⟨[], s⟩
    | some (inner, rest') => push ⟨lead, inner⟩ (ofText rest')
termination_by s.length
decreasing_by
  have h₁ := congrArg List.length (Text.cutAt_eq_some_iff.1 _h).2
  have h₂ := congrArg List.length (Text.cutAt_eq_some_iff.1 _h').2
  simp only [List.length_append, List.length_cons] at h₁ h₂
  omega

/-- The text between the brackets of each slot, in order. -/
def expressions (t : Template) : List Text := t.slots.map Slot.inner

/-- The text of the template with `f` of its expression in the place of each slot. -/
def substitute (f : Text → Text) (t : Template) : Text :=
  t.slots.flatMap (fun s => s.lead ++ f s.inner) ++ t.tail

/-- An expression in its brackets. -/
def bracketed (inner : Text) : Text := '[' :: inner ++ [']']

/-- The text of the template. -/
def text (t : Template) : Text := t.substitute bracketed

theorem substitute_push (f : Text → Text) (s : Slot) (t : Template) :
    (push s t).substitute f = s.lead ++ f s.inner ++ t.substitute f := by
  simp [push, substitute]

theorem text_push (s : Slot) (t : Template) :
    (push s t).text = s.lead ++ bracketed s.inner ++ t.text :=
  substitute_push bracketed s t

/-- Every text is the text of its template. -/
theorem text_ofText (s : Text) : (ofText s).text = s := by
  fun_induction ofText s with
  | case1 s _ => simp [text, substitute]
  | case2 s _ _ _ _ => simp [text, substitute]
  | case3 s lead rest h inner rest' h' ih =>
    obtain ⟨_, rfl⟩ := Text.cutAt_eq_some_iff.1 h
    obtain ⟨_, rfl⟩ := Text.cutAt_eq_some_iff.1 h'
    rw [text_push, ih]
    simp [bracketed]

end Template

end PromptFill
