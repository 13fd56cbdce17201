/-
  What is still open.

  The texts of the annotated preview, one after the other, are a text again, in which the gaps
  stand as keys in brackets.  `remaining` is the template that this text was put together from:
  what is filled belongs to the literal text, and every gap is a slot.  It is also the template
  that is read from the text, if no filled text opens a bracket (`canonical_remaining`): a key
  holds no closing bracket, and what is read behind a gap begins with literal text.

  So a preview can be filled later, as `ofText_joined_segments` says.
-/
import PromptFill.Proofs.Template.Concatenation
import PromptFill.Proofs.Template.Missing
import PromptFill.Proofs.Template.WellFormed

namespace PromptFill

open Placeholder Text

/-! ## Keys as expressions -/

/-- A key is read as a placeholder with this key and without a default. -/
theorem Placeholder.ofInner_key (inner : Text) :
    ofInner (ofInner inner).key = { key := (ofInner inner).key } := by
  rw [ofInner_of_not_mem (not_equals_of_mem_key inner), trim_key]

namespace Template

variable {t : Template} {v : Values}

/-- The text between two brackets. -/
def unbracketed (s : Text) : Text := s.tail.dropLast

theorem unbracketed_bracketed (inner : Text) : unbracketed (bracketed inner) = inner := by
  simp [unbracketed, bracketed]

/-- A template whose expressions are keys asks for these keys, without defaults. -/
theorem placeholders_of_keys (h : ∀ inner ∈ t.expressions, ofInner inner = { key := inner }) :
    t.placeholders =
      (t.expressions.filter fun key => key ≠ []).eraseDups.map fun key => { key } := by
  have hexpressions : t.expressions.map ofInner = t.expressions.map fun key => { key } :=
    List.map_congr_left h
  have hkeys : ((t.expressions.map ofInner).filter fun p => p.key ≠ []).map key =
      t.expressions.filter fun key => key ≠ [] := by
    rw [hexpressions, List.filter_map, List.map_map]
    exact List.map_id _
  have hself : t.placeholders.map id = t.placeholders.map fun p => { key := p.key } := by
    refine List.map_congr_left fun p hp => ?_
    obtain ⟨-, inner, hfirst, rfl⟩ := mem_placeholders_iff.1 hp
    rw [h inner (mem_of_first? hfirst)]
    rfl
  rw [← hkeys, ← map_key_distinct, List.map_map]
  rwa [List.map_id] at hself

/-! ## The remaining template -/

/-- The keys of the gaps in order. -/
def openKeys (t : Template) (v : Values) : List Text :=
  (t.gaps v).map fun inner => (ofInner inner).key

/-- The template with its gaps as slots, and what is filled as literal text. -/
def remaining (t : Template) (v : Values) : Template :=
  t.slots.foldr (fun slot u =>
    if (ofInner slot.inner).resolve v = [] then push ⟨slot.lead, (ofInner slot.inner).key⟩ u
    else u.prepend (slot.lead ++ (ofInner slot.inner).resolve v)) ⟨[], t.tail⟩

theorem remaining_push (s : Slot) (t : Template) (v : Values) : (push s t).remaining v =
    if (ofInner s.inner).resolve v = [] then
      push ⟨s.lead, (ofInner s.inner).key⟩ (t.remaining v)
    else (t.remaining v).prepend (s.lead ++ (ofInner s.inner).resolve v) := rfl

theorem substitute_remaining (f : Text → Text) (t : Template) (v : Values) :
    (t.remaining v).substitute f = t.substitute fun inner =>
      if (ofInner inner).resolve v = [] then f (ofInner inner).key
      else (ofInner inner).resolve v := by
  induction t using pushInduct with
  | tail s => rfl
  | push s t ih =>
    rw [remaining_push, substitute_push]
    split_ifs with h
    · rw [substitute_push, ih]
    · rw [substitute_prepend, ih]

theorem expressions_remaining (t : Template) (v : Values) :
    (t.remaining v).expressions = t.openKeys v := by
  induction t using pushInduct with
  | tail s => rfl
  | push s t ih =>
    have hgaps : (push s t).gaps v = (s.inner :: t.expressions).filter fun inner =>
      (ofInner inner).resolve v = [] := rfl
    rw [remaining_push, openKeys, hgaps]
    split_ifs with h
    · rw [List.filter_cons_of_pos (by simpa using h), List.map_cons]
      exact congrArg ((ofInner s.inner).key :: ·) ih
    · rw [List.filter_cons_of_neg (by simpa using h), expressions_prepend]
      exact ih

theorem flatMap_text_segments (t : Template) (v : Values) :
    (t.segments v).flatMap Segment.text = (t.remaining v).text := by
  have htext : Segment.text = Segment.textWith id := by
    funext seg
    exact (ite_self seg.text).symm
  rw [htext, flatMap_textWith_segments, text, substitute_remaining]
  congr 1
  funext inner
  exact Segment.textWith_ofInner id v inner

/-- If nothing that is filled in opens a bracket, then the gaps are where a reader finds slots. -/
theorem canonical_remaining (ht : t.Canonical)
    (h : ∀ inner ∈ t.expressions, '[' ∉ (ofInner inner).resolve v) :
    (t.remaining v).Canonical := by
  induction t, ht using Canonical.induct with
  | tail s hs => exact canonical_nil.2 hs
  | push s t hl hi ht ih =>
    obtain ⟨hs, hrest⟩ := List.forall_mem_cons.1 h
    rw [remaining_push]
    split_ifs
    · exact canonical_push.2 ⟨⟨hl, fun hm => hi (mem_of_mem_key hm)⟩, ih hrest⟩
    · have hplain : '[' ∉ s.lead ++ (ofInner s.inner).resolve v := by
        rw [List.mem_append, not_or]
        exact ⟨hl, hs⟩
      exact canonical_prepend (not_hasPair_of_not_mem hplain) (ih hrest) (.inl hplain)

theorem not_opening_of_filled
    (h : ∀ seg ∈ t.segments v, seg.isFilled = true → '[' ∉ seg.text) :
    ∀ inner ∈ t.expressions, '[' ∉ (ofInner inner).resolve v := by
  intro inner hi
  by_cases hr : (ofInner inner).resolve v = []
  · rw [hr]
    exact List.not_mem_nil
  · have hseg : Segment.ofInner v inner ∈ (t.segments v).filter Segment.isPlaceholder := by
      rw [filter_isPlaceholder_segments]
      exact List.mem_map_of_mem hi
    have hfilled := h _ (List.mem_filter.1 hseg).1
    rw [Segment.ofInner_of_resolve_ne_nil hr] at hfilled
    exact hfilled rfl

/-- What a remaining template becomes when it is filled: gaps get live values or nothing. -/
theorem fill_remaining (t : Template) (v w : Values) : (t.remaining v).fill w =
    (t.segments v).flatMap
      (Segment.textWith fun gap => (w.live? (unbracketed gap)).getD []) := by
  rw [fill, substitute_remaining, flatMap_textWith_segments]
  congr 1
  funext inner
  rw [Segment.textWith_ofInner, unbracketed_bracketed, ofInner_key]
  rfl

/-- **The joined preview is a template of what is still open.**  If no filled segment holds an
    opening bracket, then the expressions of the joined preview are its gaps, in order, and each is
    read as a line of text without default under its own key.  It asks for the keys of the gaps
    that are not empty, each once and in the order in which they come first, and filling it keeps
    the literal and the filled segments and replaces each gap by the live value of its key, or by
    nothing. -/
theorem ofText_joined_segments (s : Text) (v : Values)
    (h : ∀ seg ∈ (ofText s).segments v, seg.isFilled = true → '[' ∉ seg.text) :
    ((ofText s).segments v).filter Segment.isGap = ((ofText s).openKeys v).map (fun key =>
        { text := bracketed key, isPlaceholder := true }) ∧
      (ofText (((ofText s).segments v).flatMap Segment.text)).expressions =
        (ofText s).openKeys v ∧
      (∀ key ∈ (ofText s).openKeys v, ofInner key =
        { key := key, kind := .text, defaultValue := [], options := [] }) ∧
      (ofText (((ofText s).segments v).flatMap Segment.text)).placeholders =
        (((ofText s).openKeys v).filter fun key => key ≠ []).eraseDups.map (fun key =>
          { key := key, kind := .text, defaultValue := [], options := [] }) ∧
      ∀ w : Values, (ofText (((ofText s).segments v).flatMap Segment.text)).fill w =
        ((ofText s).segments v).flatMap
          (Segment.textWith fun gap => (w.live? (unbracketed gap)).getD []) := by
  have hread : ofText (((ofText s).segments v).flatMap Segment.text) = (ofText s).remaining v := by
    rw [flatMap_text_segments]
    exact (canonical_remaining (canonical_ofText s) (not_opening_of_filled h)).ofText_text
  have hkeys : ∀ key ∈ (ofText s).openKeys v, ofInner key = { key := key } := by
    intro key hk
    obtain ⟨inner, -, rfl⟩ := List.mem_map.1 hk
    exact ofInner_key inner
  rw [hread]
  refine ⟨?_, expressions_remaining _ v, hkeys, ?_, fill_remaining _ v⟩
  · rw [filter_isGap_segments, openKeys, List.map_map]
    rfl
  · rw [placeholders_of_keys, expressions_remaining]
    rwa [expressions_remaining]

/-- Keys may hold opening brackets, and what is filled closing ones. -/
theorem ofText_joined_segments_nested :
    ((ofText "] [[k=][b=c]] [[k] [".toList).segments [("b".toList, some "y]".toList)]).flatMap
        Segment.text = "] [[k]y]] [[k] [".toList ∧
      (ofText "] [[k]y]] [[k] [".toList).expressions = ["[k".toList, "[k".toList] ∧
      (ofText "] [[k]y]] [[k] [".toList).placeholders = [{ key := "[k".toList }] ∧
      (ofText "] [[k]y]] [[k] [".toList).fill [("[k".toList, some "1".toList)] =
        "] 1y]] 1 [".toList := by
  have ht : ofText "] [[k=][b=c]] [[k] [".toList =
      ⟨[⟨"] ".toList, "[k=".toList⟩, ⟨[], "b=c".toList⟩, ⟨"] ".toList, "[k".toList⟩],
        " [".toList⟩ :=
    (canonical_and_text_eq_iff.1 ⟨⟨by decide, by decide, by decide⟩, by decide⟩).symm
  have htext : ((ofText "] [[k=][b=c]] [[k] [".toList).segments
      [("b".toList, some "y]".toList)]).flatMap Segment.text = "] [[k]y]] [[k] [".toList := by
    rw [ht]
    decide
  obtain ⟨-, hexpressions, -, hplaceholders, hfill⟩ :=
    ofText_joined_segments "] [[k=][b=c]] [[k] [".toList [("b".toList, some "y]".toList)]
      (by rw [ht]; decide)
  rw [htext] at hexpressions hplaceholders hfill
  refine ⟨htext, ?_, ?_, ?_⟩
  · rw [hexpressions, ht]
    decide
  · rw [hplaceholders, ht]
    decide
  · rw [hfill, ht]
    decide

end Template

end PromptFill
