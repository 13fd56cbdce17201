/-
  Entering one value.

  A segment of the annotated preview comes from a piece of the template: from a literal text, or
  from an expression, and then it depends on the live value of the key of the expression and on
  nothing else.  So entering a value for one key changes the segments of the expressions with this
  key, and `Edited` says what becomes of them; a blank value is as good as none
  (`segments_set`).

  Values that agree on the keys of all expressions are the same to a template
  (`Agree`).
-/
import PromptFill.Proofs.Table
import PromptFill.Proofs.Template.Keys
import PromptFill.Proofs.Template.Missing

namespace PromptFill

open Placeholder Text

/-! ## The value of one key -/

namespace Values

variable {v : Values} {key : Text} {w : Option Text}

theorem live?_eq_none_iff :
    v.live? key = none ↔ ∀ w, v.get? key = some w → isBlankValue w = true := by
  constructor
  · intro h w hw
    cases w with
    | none => rfl
    | some s =>
      by_contra hs
      rw [live?_eq_some_iff.2 ⟨hw, Bool.eq_false_iff.2 hs⟩] at h
      cases h
  · intro h
    by_contra hne
    obtain ⟨s, hs⟩ := Option.ne_none_iff_exists'.1 hne
    obtain ⟨hget, hblank⟩ := live?_eq_some_iff.1 hs
    have hb : isBlank s = true := h _ hget
    rw [hblank] at hb
    cases hb

theorem live?_set_of_ne {j : Text} (h : j ≠ key) (w : Option Text) :
    live? (v.set key w) j = v.live? j :=
  live?_congr (by rw [Table.get?_set, if_neg h])

theorem live?_set_of_not_blank {s : Text} (h : isBlank s = false) :
    live? (v.set key (some s)) key = some s :=
  live?_eq_some_iff.2 ⟨by rw [Table.get?_set, if_pos rfl], h⟩

theorem live?_set_of_blank (h : isBlankValue w = true) : live? (v.set key w) key = none := by
  refine live?_eq_none_iff.2 fun w' hw' => ?_
  rw [Table.get?_set, if_pos rfl, Option.some.injEq] at hw'
  rwa [← hw']

theorem live?_unset (v : Values) (key j : Text) :
    live? (v.unset key) j = if j = key then none else v.live? j := by
  split_ifs with h
  · refine live?_eq_none_iff.2 fun w hw => ?_
    rw [Table.get?_unset, if_pos h] at hw
    cases hw
  · exact live?_congr (by rw [Table.get?_unset, if_neg h])

end Values

theorem Form.missing_set_of_not_blank {key s : Text} (h : isBlank s = false)
    (ps : List Placeholder) (v : Values) :
    Form.missing ps (v.set key (some s)) = (Form.missing ps v).filter fun k => k ≠ key := by
  rw [Form.missing, Form.missing, List.filter_map, List.filter_filter]
  congr 1
  refine List.filter_congr fun p _ => ?_
  rw [Form.isMissing, Form.isMissing, Function.comp_apply]
  by_cases hp : p.key = key
  · rw [hp, Values.live?_set_of_not_blank h]
    simp
  · rw [Values.live?_set_of_ne hp]
    simp [hp]

/-! ## The pieces of a template -/

/-- A literal text or an expression. -/
inductive Piece where
  | literal (s : Text)
  | slot (inner : Text)

namespace Piece

/-- A literal text is one piece, or none if it is empty. -/
def ofLiteral (s : Text) : List Piece := if s = [] then [] else [.literal s]

/-- The text of a piece. -/
def text : Piece → Text
  | literal s => s
  | slot inner => Template.bracketed inner

/-- The segment that shows a piece. -/
def segment (v : Values) : Piece → Segment
  | literal s => { text := s }
  | slot inner => Segment.ofInner v inner

theorem flatMap_text_ofLiteral (s : Text) : (ofLiteral s).flatMap text = s := by
  unfold ofLiteral
  split_ifs with h
  · exact h.symm
  · exact List.append_nil s

theorem map_segment_ofLiteral (v : Values) (s : Text) :
    (ofLiteral s).map (segment v) = Segment.literal s := by
  unfold ofLiteral Segment.literal
  split_ifs <;> rfl

/-- A piece was shown as `before` and is shown as `after`, now that `w` was entered for `key`: all
    but the expressions with this key are shown as before, and these as what was entered, or if
    that is blank, as their own default or as a gap. -/
structure Edited (key : Text) (w : Option Text) (piece : Piece) (before after : Segment) : Prop where
  literal : ∀ s, piece = .literal s → before = { text := s } ∧ after = before
  other : ∀ inner, piece = .slot inner → (ofInner inner).key ≠ key → after = before
  entered : ∀ inner s, piece = .slot inner → (ofInner inner).key = key → w = some s →
    isBlank s = false → after = { text := s, isPlaceholder := true, isFilled := true }
  cleared : ∀ inner, piece = .slot inner → (ofInner inner).key = key → isBlankValue w = true →
    after = if (ofInner inner).defaultValue = [] then
        { text := Template.bracketed key, isPlaceholder := true }
      else { text := (ofInner inner).defaultValue, isPlaceholder := true, isFilled := true }

theorem edited (v : Values) (key : Text) (w : Option Text) (piece : Piece) :
    Edited key w piece (piece.segment v) (piece.segment (v.set key w)) := by
  refine ⟨?_, ?_, ?_, ?_⟩
  · rintro s rfl
    exact ⟨rfl, rfl⟩
  · rintro inner rfl hk
    exact Segment.ofInner_eq_iff.2 (resolve_congr (Values.live?_set_of_ne hk w))
  · rintro inner s rfl rfl rfl hs
    have hr : (ofInner inner).resolve (v.set (ofInner inner).key (some s)) = s :=
      resolve_of_live (Values.live?_set_of_not_blank hs)
    have hne : s ≠ [] := by
      rintro rfl
      cases hs
    rw [segment, Segment.ofInner_of_resolve_ne_nil (by rwa [hr]), hr]
  · rintro inner rfl rfl hw
    have hr : (ofInner inner).resolve (v.set (ofInner inner).key w) = (ofInner inner).defaultValue :=
      resolve_of_not_live (Values.live?_set_of_blank hw)
    split_ifs with hd
    · exact Segment.ofInner_of_resolve_eq_nil (hr.trans hd)
    · rw [segment, Segment.ofInner_of_resolve_ne_nil (by rwa [hr]), hr]

end Piece

namespace Template

/-- The pieces of a template in order. -/
def pieces (t : Template) : List Piece :=
  t.slots.flatMap (fun s => Piece.ofLiteral s.lead ++ [.slot s.inner]) ++ Piece.ofLiteral t.tail

theorem pieces_push (s : Slot) (t : Template) :
    (push s t).pieces = Piece.ofLiteral s.lead ++ .slot s.inner :: t.pieces := by
  simp [pieces, push]

theorem flatMap_text_pieces (t : Template) : t.pieces.flatMap Piece.text = t.text := by
  induction t using pushInduct with
  | tail s =>
    rw [text_nil]
    exact Piece.flatMap_text_ofLiteral s
  | push s t ih =>
    rw [pieces_push, text_push, List.flatMap_append, List.flatMap_cons,
      Piece.flatMap_text_ofLiteral, ih, List.append_assoc]
    rfl

theorem segments_eq_map_pieces (t : Template) (v : Values) :
    t.segments v = t.pieces.map (Piece.segment v) := by
  induction t using pushInduct with
  | tail s => exact (Piece.map_segment_ofLiteral v s).symm
  | push s t ih =>
    rw [segments_push, pieces_push, List.map_append, List.map_cons, Piece.map_segment_ofLiteral,
      ih]
    rfl

/-! ## Values that agree -/

variable {t : Template} {v v' : Values}

/-- Two maps have the same live values for all expressions of a template. -/
def Agree (t : Template) (v v' : Values) : Prop :=
  ∀ inner ∈ t.expressions, v.live? (ofInner inner).key = v'.live? (ofInner inner).key

theorem segments_eq_of_agree (h : t.Agree v v') : t.segments v = t.segments v' :=
  segments_eq_iff.2 fun inner hi => resolve_congr (h inner hi)

theorem missing_eq_of_agree (h : t.Agree v v') :
    Form.missing t.placeholders v = Form.missing t.placeholders v' := by
  refine Form.missing_congr fun p hp => ?_
  obtain ⟨-, inner, hi, hk⟩ := mem_map_key_placeholders_iff.1 (List.mem_map_of_mem hp)
  rw [← hk, h inner hi]

theorem agree_set_unset {key : Text} {w : Option Text} (hw : isBlankValue w = true)
    (t : Template) (v : Values) : t.Agree (v.set key w) (v.unset key) := by
  intro inner _
  rw [Values.live?_unset]
  split_ifs with hk
  · rw [hk, Values.live?_set_of_blank hw]
  · exact Values.live?_set_of_ne hk w

/-- **Entering one value.**  The annotated preview has one segment for each piece of the template,
    also after a value was entered for a key, and changes at the expressions with this key only: if
    the value is not blank they show it, and the key is no longer missing; if it is blank they show
    their own default or a gap, as without any value for the key.  What a template becomes and what
    is missing depends on the live values of the keys of its expressions alone. -/
theorem segments_set (s : Text) (v : Values) (key : Text) (w : Option Text) :
    (ofText s).pieces.flatMap Piece.text = s ∧
      ((ofText s).segments v).length = (ofText s).pieces.length ∧
      ((ofText s).segments (v.set key w)).length = ((ofText s).segments v).length ∧
      (∀ (i : Nat) (piece : Piece), (ofText s).pieces[i]? = some piece → ∃ before after,
        ((ofText s).segments v)[i]? = some before ∧
          ((ofText s).segments (v.set key w))[i]? = some after ∧
          Piece.Edited key w piece before after) ∧
      (isBlankValue w = true →
        (ofText s).segments (v.set key w) = (ofText s).segments (v.unset key)) ∧
      (isBlankValue w = false → Form.missing (ofText s).placeholders (v.set key w) =
        (Form.missing (ofText s).placeholders v).filter fun k => k ≠ key) ∧
      ∀ u u' : Values,
        (∀ inner ∈ (ofText s).expressions,
          u.live? (ofInner inner).key = u'.live? (ofInner inner).key) →
        (ofText s).segments u = (ofText s).segments u' ∧ (ofText s).fill u = (ofText s).fill u' ∧
          (ofText s).preview u = (ofText s).preview u' ∧
          Form.missing (ofText s).placeholders u = Form.missing (ofText s).placeholders u' := by
  refine ⟨?_, ?_, ?_, fun i piece hi => ?_, fun hw => ?_, fun hw => ?_, fun u u' h => ?_⟩
  · rw [flatMap_text_pieces, text_ofText]
  · rw [segments_eq_map_pieces, List.length_map]
  · rw [segments_eq_map_pieces, segments_eq_map_pieces, List.length_map, List.length_map]
  · refine ⟨piece.segment v, piece.segment (v.set key w), ?_, ?_, piece.edited v key w⟩
    · rw [segments_eq_map_pieces, List.getElem?_map, hi, Option.map_some]
    · rw [segments_eq_map_pieces, List.getElem?_map, hi, Option.map_some]
  · exact segments_eq_of_agree (agree_set_unset hw _ v)
  · cases w with
    | none => cases hw
    | some x => exact Form.missing_set_of_not_blank hw _ v
  · have hsegments : (ofText s).segments u = (ofText s).segments u' := segments_eq_of_agree h
    refine ⟨hsegments, ?_, ?_, missing_eq_of_agree h⟩
    · rw [fill_eq_flatMap, fill_eq_flatMap, hsegments]
    · rw [preview_eq_flatMap, preview_eq_flatMap, hsegments]

end Template

end PromptFill
