/-
  Templates one after the other.

  `append t u` puts the tail of one template in front of the other.  Everything that is read off a
  template goes through it: its text, what it asks for and what it becomes are put together from
  the two parts, and so are its segments, in which the two literal texts at the seam become one
  (`segments_append`).

  The text `a ++ b` is read as `a` followed by `b` exactly if no bracket that is left open in the
  tail of `a` is closed in `b` (`segments_ofText_append_iff`).
-/
import PromptFill.Proofs.Template.Rendering
import PromptFill.Proofs.Template.Warning

namespace PromptFill

open Text

/-! ## Segments one after the other -/

namespace Segment

/-- One list of segments after the other; where two literal segments meet, they become one. -/
def join : List Segment → List Segment → List Segment
  | [], ys => ys
  | [x], [] => [x]
  | [x], y :: ys =>
    if x.isPlaceholder || y.isPlaceholder then x :: y :: ys else { text := x.text ++ y.text } :: ys
  | x :: x' :: xs, ys => x :: join (x' :: xs) ys

theorem join_placeholder {x : Segment} (h : x.isPlaceholder = true) (xs ys : List Segment) :
    join (x :: xs) ys = x :: join xs ys := by
  cases xs with
  | cons => rfl
  | nil =>
    cases ys with
    | nil => rfl
    | cons y ys => exact if_pos (by rw [h, Bool.true_or])

theorem join_literal_append {p : Segment} (h : p.isPlaceholder = true) (s : Text)
    (xs ys : List Segment) : join (literal s ++ p :: xs) ys = literal s ++ p :: join xs ys := by
  rw [← join_placeholder h]
  unfold literal
  split_ifs <;> rfl

theorem join_literal_literal (s s' : Text) : join (literal s) (literal s') = literal (s ++ s') := by
  by_cases hs : s = [] <;> by_cases hs' : s' = [] <;> simp [literal, join, hs, hs']

theorem join_literal_slot {p : Segment} (h : p.isPlaceholder = true) (s s' : Text)
    (ys : List Segment) :
    join (literal s) (literal s' ++ p :: ys) = literal (s ++ s') ++ p :: ys := by
  by_cases hs : s = [] <;> by_cases hs' : s' = [] <;> simp [literal, join, hs, hs', h]

end Segment

/-- Whether a warning is about an expression, and not about the text as a whole. -/
def Warning.isAboutSlot : Warning → Bool
  | unbalanced _ _ => false
  | emptySlot => true
  | unlabelled _ => true

namespace Template

open Placeholder Segment

variable {t u : Template} {v : Values} {a b : Text}

/-! ## Templates one after the other -/

/-- The template with literal text in front. -/
def prepend (s : Text) (t : Template) : Template :=
  match t.slots with
  | [] => ⟨[], s ++ t.tail⟩
  | slot :: slots => ⟨⟨s ++ slot.lead, slot.inner⟩ :: slots, t.tail⟩

/-- One template after the other. -/
def append (t u : Template) : Template :=
  ⟨t.slots ++ (u.prepend t.tail).slots, (u.prepend t.tail).tail⟩

theorem prepend_tail (s s' : Text) : prepend s ⟨[], s'⟩ = ⟨[], s ++ s'⟩ := rfl

theorem prepend_push (s : Text) (slot : Slot) (t : Template) :
    prepend s (push slot t) = push ⟨s ++ slot.lead, slot.inner⟩ t := rfl

theorem substitute_prepend (f : Text → Text) (s : Text) (t : Template) :
    (t.prepend s).substitute f = s ++ t.substitute f := by
  induction t using pushInduct with
  | tail s' => rfl
  | push slot t =>
    rw [prepend_push, substitute_push, substitute_push]
    simp only [List.append_assoc]

theorem expressions_prepend (s : Text) (t : Template) :
    (t.prepend s).expressions = t.expressions := by
  induction t using pushInduct with
  | tail s' => rfl
  | push slot t => rfl

theorem append_tail (s : Text) (u : Template) : append ⟨[], s⟩ u = u.prepend s := rfl

theorem append_push (s : Slot) (t u : Template) : append (push s t) u = push s (append t u) := rfl

theorem substitute_append (f : Text → Text) (t u : Template) :
    (t.append u).substitute f = t.substitute f ++ u.substitute f := by
  induction t using pushInduct with
  | push s t ih =>
    rw [append_push, substitute_push, substitute_push, ih]
    simp only [List.append_assoc]
  | tail s => exact substitute_prepend f s u

theorem expressions_append (t u : Template) :
    (t.append u).expressions = t.expressions ++ u.expressions := by
  induction t using pushInduct with
  | push s t ih => exact congrArg (s.inner :: ·) ih
  | tail s => exact expressions_prepend s u

theorem segments_append (t u : Template) (v : Values) :
    (t.append u).segments v = join (t.segments v) (u.segments v) := by
  induction t using pushInduct with
  | push s t ih =>
    rw [append_push, segments_push, segments_push, ih,
      join_literal_append (isPlaceholder_ofInner v s.inner)]
  | tail s =>
    rw [append_tail]
    induction u using pushInduct with
    | tail s' => exact (join_literal_literal s s').symm
    | push slot u =>
      rw [prepend_push, segments_push, segments_push]
      exact (join_literal_slot (isPlaceholder_ofInner v slot.inner) s slot.lead _).symm

theorem count_append (t u : Template) : (t.append u).count = t.count + u.count := by
  have h := congrArg List.length (expressions_append t u)
  simpa only [count, expressions, List.length_append, List.length_map] using h

theorem placeholders_append (t u : Template) :
    (t.append u).placeholders =
      t.placeholders ++ u.placeholders.filter fun p => p.key ∉ t.placeholders.map key := by
  rw [placeholders, expressions_append, List.map_append, List.filter_append, distinct_append,
    ← placeholders, ← placeholders]
  congr 1
  refine List.filter_congr fun p _ => ?_
  rw [decide_eq_decide, placeholders, mem_map_key_distinct_iff]

/-! ## Reading two texts -/

/-- No bracket that the first template leaves open is closed in the second text. -/
def Closed (t : Template) (b : Text) : Prop := '[' ∉ t.tail ∨ ']' ∉ b

theorem canonical_prepend {s : Text} (hs : ¬ HasPair s) (hu : u.Canonical)
    (h : '[' ∉ s ∨ ']' ∉ u.text) : (u.prepend s).Canonical := by
  induction u, hu using Canonical.induct with
  | tail s' hs' =>
    rw [text_nil] at h
    rw [prepend_tail, canonical_nil, hasPair_append]
    tauto
  | push slot u hl hi hu _ =>
    have hclosing : ']' ∈ (push slot u).text := by
      rw [text_push]
      simp [bracketed]
    have hopen := h.resolve_right (not_not.2 hclosing)
    refine canonical_push.2 ⟨⟨?_, hi⟩, hu⟩
    exact fun hm => (List.mem_append.1 hm).elim hopen hl

theorem canonical_append (ht : t.Canonical) (hu : u.Canonical) (h : t.Closed u.text) :
    (t.append u).Canonical := by
  induction t, ht using Canonical.induct with
  | tail s hs => exact canonical_prepend hs hu h
  | push s t hl hi _ ih => exact canonical_push.2 ⟨⟨hl, hi⟩, ih h⟩

theorem ofText_append_of_closed (h : (ofText a).Closed b) :
    ofText (a ++ b) = (ofText a).append (ofText b) := by
  have htext : ((ofText a).append (ofText b)).text = a ++ b := by
    rw [text, substitute_append, ← text, ← text, text_ofText, text_ofText]
  have hclosed : (ofText a).Closed (ofText b).text := by rwa [text_ofText]
  exact (canonical_and_text_eq_iff.1
    ⟨canonical_append (canonical_ofText a) (canonical_ofText b) hclosed, htext⟩).symm

/-- Literal text in front makes the first segment, or the beginning of it. -/
theorem exists_segments_prepend {s : Text} (hs : s ≠ []) (u : Template) (v : Values) :
    ∃ s' segs, (u.prepend s).segments v = { text := s ++ s' } :: segs := by
  have hliteral (s' : Text) : literal (s ++ s') = [{ text := s ++ s' }] :=
    if_neg (List.append_ne_nil_of_left_ne_nil hs s')
  induction u using pushInduct with
  | tail s' => exact ⟨s', [], hliteral s'⟩
  | push slot u =>
    refine ⟨slot.lead, ofInner v slot.inner :: u.segments v, ?_⟩
    rw [prepend_push, segments_push, hliteral, List.singleton_append]

/-- A bracket that is left open swallows the second text up to where it is closed, so that a slot
    begins where there would be literal text. -/
theorem segments_ofText_append_ne (ht : t.Canonical) (h : ¬ t.Closed b) (u : Template)
    (v : Values) : (ofText (t.text ++ b)).segments v ≠ (t.append u).segments v := by
  induction t, ht using Canonical.induct with
  | push s t hl hi _ ih =>
    rw [text_push, List.append_assoc, ofText_append hl hi, append_push, segments_push,
      segments_push]
    intro he
    exact ih h (List.cons.inj (List.append_cancel_left he)).2
  | tail s hs =>
    rw [Closed, not_or, not_not, not_not] at h
    obtain ⟨⟨lead, inner⟩, hopen⟩ := Option.ne_none_iff_exists'.1
      (mt cutAt_eq_none_iff.1 (not_not.2 h.1))
    obtain ⟨⟨inner', rest⟩, hclose⟩ := Option.ne_none_iff_exists'.1
      (mt cutAt_eq_none_iff.1 (not_not.2 h.2))
    obtain ⟨hlead, rfl⟩ := cutAt_eq_some_iff.1 hopen
    obtain ⟨hinner', rfl⟩ := cutAt_eq_some_iff.1 hclose
    have hinner : ']' ∉ inner ++ inner' := by
      rw [List.mem_append, not_or]
      exact ⟨fun hm => hs ⟨lead, inner, rfl, hm⟩, hinner'⟩
    have htext : text ⟨[], lead ++ '[' :: inner⟩ ++ (inner' ++ ']' :: rest) =
        lead ++ bracketed (inner ++ inner') ++ rest := by
      rw [text_nil]
      simp [bracketed]
    obtain ⟨s', segs, hsegs⟩ := exists_segments_prepend
      (List.append_ne_nil_of_right_ne_nil lead (List.cons_ne_nil '[' inner)) u v
    rw [htext, ofText_append hlead hinner, segments_push, append_tail, hsegs]
    intro he
    by_cases hl : lead = []
    · rw [hl, literal, if_pos rfl, List.nil_append] at he
      have hp := isPlaceholder_ofInner v (inner ++ inner')
      rw [(List.cons.inj he).1] at hp
      cases hp
    · rw [literal, if_neg hl, List.singleton_append] at he
      have htexts := congrArg (List.length ∘ Segment.text) (List.cons.inj he).1
      simp only [Function.comp_apply, List.length_append, List.length_cons] at htexts
      omega

theorem filter_isAboutSlot_warnings (s : Text) :
    (warnings s).filter Warning.isAboutSlot =
      ((ofText s).expressions.filter fun inner => (ofInner inner).key = []).map
        Warning.unkeyed := by
  have htext : (Warning.ofText s).toList.filter Warning.isAboutSlot = [] := by
    rw [Warning.ofText]
    split_ifs <;> rfl
  have hslots (inners : List Text) :
      (inners.map Warning.unkeyed).filter Warning.isAboutSlot = inners.map Warning.unkeyed := by
    rw [List.filter_eq_self, List.forall_mem_map]
    intro inner _
    rw [Warning.unkeyed]
    split_ifs <;> rfl
  rw [warnings_eq_append, List.filter_append, htext, hslots, List.nil_append]

/-- **When templates can be put together.**  The annotated preview of two texts one after the
    other is that of the first followed by that of the second exactly if there is no opening
    bracket behind the slots of the first text or no closing bracket in the second.  Then the
    filled texts and the previews follow each other too, slots are counted together, the
    warnings about expressions stand one after the other, and the second text asks in addition
    for those keys that the first does not ask for. -/
theorem segments_ofText_append_iff (a b : Text) (v : Values) :
    ((ofText (a ++ b)).segments v = join ((ofText a).segments v) ((ofText b).segments v) ↔
        '[' ∉ (ofText a).tail ∨ ']' ∉ b) ∧
      ('[' ∉ (ofText a).tail ∨ ']' ∉ b →
        (ofText (a ++ b)).fill v = (ofText a).fill v ++ (ofText b).fill v ∧
        (ofText (a ++ b)).preview v = (ofText a).preview v ++ (ofText b).preview v ∧
        (ofText (a ++ b)).count = (ofText a).count + (ofText b).count ∧
        (warnings (a ++ b)).filter Warning.isAboutSlot =
          (warnings a).filter Warning.isAboutSlot ++ (warnings b).filter Warning.isAboutSlot ∧
        (ofText (a ++ b)).placeholders = (ofText a).placeholders ++
          (ofText b).placeholders.filter fun p => p.key ∉ (ofText a).placeholders.map key) := by
  rw [← segments_append]
  refine ⟨⟨fun he => ?_, fun h => ?_⟩, fun h => ?_⟩
  · by_contra h
    have hne := segments_ofText_append_ne (canonical_ofText a) h (ofText b) v
    rw [text_ofText] at hne
    exact hne he
  · rw [ofText_append_of_closed h]
  · rw [filter_isAboutSlot_warnings, filter_isAboutSlot_warnings, filter_isAboutSlot_warnings,
      ofText_append_of_closed h]
    refine ⟨substitute_append _ _ _, substitute_append _ _ _, count_append _ _, ?_,
      placeholders_append _ _⟩
    rw [expressions_append, List.filter_append, List.map_append]

end Template

end PromptFill
