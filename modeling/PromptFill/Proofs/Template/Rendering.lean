/-
  The annotated preview as the source of the other two renderings.

  A gap is a placeholder segment without a value.  The filled text is the annotated preview with
  its gaps left out, and the preview is the annotated preview with the brackets of its gaps
  turned into quotes (`fill_and_preview_of_segments`).  The three test for blanks at different
  points; they agree because a slot never resolves to a text of blanks alone.
-/
import Mathlib.Data.List.Forall2
import PromptFill.Proofs.Template.Canonical
import PromptFill.Proofs.Template.Placeholder
import PromptFill.Template.Segment

namespace PromptFill

open Text

namespace Segment

/-- Whether the segment is a placeholder without a value. -/
def isGap (seg : Segment) : Bool := seg.isPlaceholder && !seg.isFilled

/-- The text of the segment, or what `g` makes of it if it is a gap. -/
def textWith (g : Text → Text) (seg : Segment) : Text := if seg.isGap then g seg.text else seg.text

/-- The text with its first and its last character turned into double quotes. -/
def requote (s : Text) : Text := '\x22' :: s.tail.dropLast ++ ['\x22']

theorem requote_bracketed (key : Text) :
    requote (Template.bracketed key) = '\x22' :: key ++ ['\x22'] := by
  simp [requote, Template.bracketed]

/-- The segment shows what the slot with these values is: its value if that is not empty, and
    its key in brackets otherwise. -/
structure Shows (v : Values) (inner : Text) (seg : Segment) : Prop where
  filled_iff : seg.isFilled = true ↔ (Placeholder.ofInner inner).resolve v ≠ []
  text_of_filled : seg.isFilled = true → seg.text = (Placeholder.ofInner inner).resolve v
  text_of_gap : seg.isFilled = false →
    seg.text = Template.bracketed (Placeholder.ofInner inner).key
  text_of_live : ∀ w, v.get? (Placeholder.ofInner inner).key = some (some w) →
    isBlank w = false → seg.text = w

/-! ## The segment of a slot -/

theorem ofInner_of_resolve_eq_nil {v : Values} {inner : Text}
    (h : (Placeholder.ofInner inner).resolve v = []) :
    ofInner v inner =
      { text := Template.bracketed (Placeholder.ofInner inner).key, isPlaceholder := true } := by
  have hb : isBlank ((Placeholder.ofInner inner).resolve v) = true := by rw [h]; rfl
  exact if_pos hb

theorem ofInner_of_resolve_ne_nil {v : Values} {inner : Text}
    (h : (Placeholder.ofInner inner).resolve v ≠ []) :
    ofInner v inner =
      { text := (Placeholder.ofInner inner).resolve v, isPlaceholder := true, isFilled := true } :=
  if_neg fun hb => h (Placeholder.resolve_eq_nil_of_isBlank hb)

theorem isPlaceholder_ofInner (v : Values) (inner : Text) :
    (ofInner v inner).isPlaceholder = true := by
  by_cases h : (Placeholder.ofInner inner).resolve v = []
  · rw [ofInner_of_resolve_eq_nil h]
  · rw [ofInner_of_resolve_ne_nil h]

theorem shows_ofInner (v : Values) (inner : Text) : Shows v inner (ofInner v inner) := by
  have hlive : ∀ w, v.get? (Placeholder.ofInner inner).key = some (some w) →
      isBlank w = false → (Placeholder.ofInner inner).resolve v = w :=
    fun w hw hb => Placeholder.resolve_of_live (Values.live?_eq_some_iff.2 ⟨hw, hb⟩)
  by_cases h : (Placeholder.ofInner inner).resolve v = []
  · rw [ofInner_of_resolve_eq_nil h]
    refine ⟨by simp [h], by simp, fun _ => rfl, fun w hw hb => ?_⟩
    rw [← hlive w hw hb, h] at hb
    cases hb
  · rw [ofInner_of_resolve_ne_nil h]
    exact ⟨by simp [h], fun _ => rfl, by simp, hlive⟩

/-- Two values show in the same way exactly if they are the same. -/
theorem ofInner_eq_iff {v v' : Values} {inner : Text} :
    ofInner v inner = ofInner v' inner ↔
      (Placeholder.ofInner inner).resolve v = (Placeholder.ofInner inner).resolve v' := by
  constructor
  · intro h
    have hv := shows_ofInner v inner
    have hv' := shows_ofInner v' inner
    rw [← h] at hv'
    cases hf : (ofInner v inner).isFilled with
    | true => rw [← hv.text_of_filled hf, ← hv'.text_of_filled hf]
    | false =>
      have hnil := mt hv.filled_iff.2 (by simp [hf])
      have hnil' := mt hv'.filled_iff.2 (by simp [hf])
      rw [not_not.1 hnil, not_not.1 hnil']
  · intro h
    simp only [ofInner, h]

theorem textWith_ofInner (g : Text → Text) (v : Values) (inner : Text) :
    textWith g (ofInner v inner) =
      if (Placeholder.ofInner inner).resolve v = [] then
        g (Template.bracketed (Placeholder.ofInner inner).key)
      else (Placeholder.ofInner inner).resolve v := by
  split_ifs with h
  · rw [ofInner_of_resolve_eq_nil h]
    rfl
  · rw [ofInner_of_resolve_ne_nil h]
    rfl

/-! ## Literal segments -/

theorem flatMap_textWith_literal (g : Text → Text) (s : Text) :
    (literal s).flatMap (textWith g) = s := by
  unfold literal
  split_ifs with h
  · rw [h]
    rfl
  · exact List.append_nil s

theorem filter_isPlaceholder_literal (s : Text) : (literal s).filter isPlaceholder = [] := by
  unfold literal
  split_ifs <;> rfl

end Segment

namespace Template

open Segment

/-! ## The segments of a template -/

theorem segments_push (s : Slot) (t : Template) (v : Values) :
    (push s t).segments v = literal s.lead ++ ofInner v s.inner :: t.segments v := by
  simp [segments, push]

theorem flatMap_textWith_segments (g : Text → Text) (t : Template) (v : Values) :
    (t.segments v).flatMap (textWith g) = t.substitute fun inner => textWith g (ofInner v inner) := by
  induction t using pushInduct with
  | tail s => exact flatMap_textWith_literal g s
  | push s t ih =>
    rw [segments_push, substitute_push, List.flatMap_append, List.flatMap_cons,
      flatMap_textWith_literal, ih, List.append_assoc]

theorem filter_isPlaceholder_segments (t : Template) (v : Values) :
    (t.segments v).filter isPlaceholder = t.expressions.map (ofInner v) := by
  induction t using pushInduct with
  | tail s => exact filter_isPlaceholder_literal s
  | push s t ih =>
    rw [segments_push, List.filter_append, filter_isPlaceholder_literal, List.nil_append,
      List.filter_cons_of_pos (isPlaceholder_ofInner v s.inner), ih]
    rfl

/-- Values show in the same way exactly if all slots resolve to the same with them. -/
theorem segments_eq_iff {t : Template} {v v' : Values} :
    t.segments v = t.segments v' ↔ ∀ inner ∈ t.expressions,
      (Placeholder.ofInner inner).resolve v = (Placeholder.ofInner inner).resolve v' := by
  constructor
  · intro h inner hi
    have hsegs := congrArg (List.filter isPlaceholder) h
    rw [filter_isPlaceholder_segments, filter_isPlaceholder_segments, List.map_inj_left] at hsegs
    exact ofInner_eq_iff.1 (hsegs inner hi)
  · intro h
    induction t using pushInduct with
    | tail s => rfl
    | push s t ih =>
      obtain ⟨hs, ht⟩ := List.forall_mem_cons.1 h
      rw [segments_push, segments_push, ofInner_eq_iff.2 hs, ih ht]

theorem fill_eq_flatMap (t : Template) (v : Values) :
    t.fill v = (t.segments v).flatMap (textWith fun _ => []) := by
  rw [flatMap_textWith_segments, fill]
  congr 1
  funext inner
  rw [textWith_ofInner]
  split_ifs with h
  · exact h
  · rfl

theorem shown_eq_ite (v : Values) (inner : Text) :
    shown v inner = if (Placeholder.ofInner inner).resolve v = [] then
      '\x22' :: (Placeholder.ofInner inner).key ++ ['\x22']
    else (Placeholder.ofInner inner).resolve v := by
  by_cases h : (Placeholder.ofInner inner).resolve v = []
  · have hb : isBlank ((Placeholder.ofInner inner).resolve v) = true := by rw [h]; rfl
    rw [if_pos h]
    exact if_pos hb
  · rw [if_neg h]
    exact if_neg fun hb => h (Placeholder.resolve_eq_nil_of_isBlank hb)

theorem preview_eq_flatMap (t : Template) (v : Values) :
    t.preview v = (t.segments v).flatMap (textWith requote) := by
  rw [flatMap_textWith_segments, preview]
  congr 1
  funext inner
  rw [textWith_ofInner, requote_bracketed, shown_eq_ite]

/-- **The three renderings agree.**  The filled text is the annotated preview without its gaps,
    the preview is the annotated preview with its gaps in quotes, and the placeholder segments
    show the slots one by one: what a slot resolves to is blank only if it is empty, and a
    filled segment carries it untouched. -/
theorem fill_and_preview_of_segments (s : Text) (v : Values) :
    (ofText s).fill v = ((ofText s).segments v).flatMap (textWith fun _ => []) ∧
      (ofText s).preview v = ((ofText s).segments v).flatMap (textWith requote) ∧
      List.Forall₂ (Shows v) (ofText s).expressions
        (((ofText s).segments v).filter isPlaceholder) ∧
      ∀ inner ∈ (ofText s).expressions, isBlank ((Placeholder.ofInner inner).resolve v) = true →
        (Placeholder.ofInner inner).resolve v = [] := by
  refine ⟨fill_eq_flatMap _ v, preview_eq_flatMap _ v, ?_,
    fun _ _ => Placeholder.resolve_eq_nil_of_isBlank⟩
  rw [filter_isPlaceholder_segments, List.forall₂_map_right_iff, List.forall₂_same]
  exact fun inner _ => shows_ofInner v inner

end Template

end PromptFill
