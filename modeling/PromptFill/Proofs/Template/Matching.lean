/-
  Templates by the positions of their brackets.

  A span is a bracket expression given by the positions of its two brackets.  `Scan` says which
  spans a search finds in a text: each is the leftmost one behind the span before it, and of
  those that begin at its place the shortest.  Nothing is said about slots.

  * `scan_iff`: the search finds the spans of the slots of the template that the text is, and
    no other spans;
  * `ofSpans_spans`: cutting the text at these spans gives the template, so that no character
    is lost or taken twice;
  * `substituteAt_eq` and `segmentsAt_eq`: walking the spans that were found, from the end of
    one to the beginning of the next, gives what the template is filled with and shown as;
  * `canonical_matching` puts this together with what is counted.
-/
import Mathlib.Tactic.ByContra
import PromptFill.Proofs.Template.Rendering

namespace PromptFill

open Text

/-! ## Spans and searches -/

/-- A bracket expression in a text, by the positions of its brackets. -/
structure Span where
  opening : Nat
  closing : Nat
deriving DecidableEq, Repr

/-- An opening bracket and a closing one behind it stand at these positions. -/
structure Span.Occurs (m : Span) (s : Text) : Prop where
  opening : s[m.opening]? = some '['
  closing : s[m.closing]? = some ']'
  lt : m.opening < m.closing

/-- The span that a search from position `i` on finds: no other begins before it, and none that
    begins with it ends before it. -/
structure Span.IsNext (m : Span) (s : Text) (i : Nat) : Prop where
  occurs : m.Occurs s
  le : i ≤ m.opening
  leftmost : ∀ m' : Span, m'.Occurs s → i ≤ m'.opening → m.opening ≤ m'.opening
  shortest : ∀ m' : Span, m'.Occurs s → m'.opening = m.opening → m.closing ≤ m'.closing

/-- The spans found from position `i` on, each looked for behind the one before. -/
inductive Scan (s : Text) : Nat → List Span → Prop
  | done {i} : (∀ m : Span, m.Occurs s → m.opening < i) → Scan s i []
  | next {i m ms} : m.IsNext s i → Scan s (m.closing + 1) ms → Scan s i (m :: ms)

theorem Span.IsNext.unique {m m' : Span} {s : Text} {i : Nat} (h : m.IsNext s i)
    (h' : m'.IsNext s i) : m = m' := by
  have ho : m.opening = m'.opening :=
    Nat.le_antisymm (h.leftmost m' h'.occurs h'.le) (h'.leftmost m h.occurs h.le)
  have hc : m.closing = m'.closing :=
    Nat.le_antisymm (h.shortest m' h'.occurs ho.symm) (h'.shortest m h.occurs ho)
  cases m
  cases m'
  rw [Span.mk.injEq]
  exact ⟨ho, hc⟩

/-- A search has one outcome. -/
theorem Scan.unique {s : Text} {i : Nat} {ms ms' : List Span} (h : Scan s i ms)
    (h' : Scan s i ms') : ms = ms' := by
  induction h generalizing ms' with
  | done hd =>
    cases h' with
    | done => rfl
    | next hn => exact absurd hn.le (Nat.not_le.2 (hd _ hn.occurs))
  | next hn _ ih =>
    cases h' with
    | done hd => exact absurd hn.le (Nat.not_le.2 (hd _ hn.occurs))
    | next hn' hs' =>
      obtain rfl := hn.unique hn'
      rw [ih hs']

/-! ## Positions in a text put together -/

theorem getElem?_append_cons (a b : Text) (c : Char) : (a ++ c :: b)[a.length]? = some c := by
  simp

theorem mem_of_getElem?_append {a b e : Text} {i : Nat} {c : Char}
    (h : (a ++ b ++ e)[i]? = some c) (ha : a.length ≤ i) (hb : i < a.length + b.length) :
    c ∈ b := by
  rw [List.getElem?_append_left (by rw [List.length_append]; exact hb),
    List.getElem?_append_right ha] at h
  exact List.mem_of_getElem? h

theorem take_drop_append (a b e : Text) : ((a ++ b ++ e).drop a.length).take b.length = b := by
  rw [List.append_assoc, List.drop_left, List.take_left]

/-- No pair of brackets stands behind `p` if what follows has none. -/
theorem Span.Occurs.opening_lt {m : Span} {p s : Text} (h : m.Occurs (p ++ s))
    (hs : ¬ HasPair s) : m.opening < p.length := by
  by_contra hlt
  have hp : p.length ≤ m.opening := Nat.not_lt.1 hlt
  have ho := h.opening
  have hc := h.closing
  rw [List.getElem?_append_right hp] at ho
  rw [List.getElem?_append_right (Nat.le_trans hp (Nat.le_of_lt h.lt))] at hc
  obtain ⟨hi, he⟩ := List.getElem?_eq_some_iff.1 ho
  refine hs ⟨s.take (m.opening - p.length), s.drop (m.opening - p.length + 1), ?_, ?_⟩
  · rw [← he, ← List.drop_eq_getElem_cons, List.take_append_drop]
  · have hk : m.opening - p.length + 1 + (m.closing - m.opening - 1) = m.closing - p.length := by
      have := h.lt
      omega
    refine List.mem_of_getElem? (i := m.closing - m.opening - 1) ?_
    rw [List.getElem?_drop, hk, hc]

/-- The brackets around `inner` are found next, from any position in `lead` on. -/
theorem isNext_bracketed {lead inner : Text} (hl : '[' ∉ lead) (hi : ']' ∉ inner) (p e : Text) :
    Span.IsNext ⟨p.length + lead.length, p.length + lead.length + 1 + inner.length⟩
      (p ++ (lead ++ Template.bracketed inner ++ e)) p.length := by
  have ho : p ++ (lead ++ Template.bracketed inner ++ e) =
      p ++ lead ++ '[' :: (inner ++ ']' :: e) := by simp [Template.bracketed]
  have hc : p ++ (lead ++ Template.bracketed inner ++ e) =
      (p ++ lead ++ ['[']) ++ inner ++ ']' :: e := by simp [Template.bracketed]
  have hp : (p ++ lead ++ ['[']).length = p.length + lead.length + 1 := by
    rw [List.length_append, List.length_append, List.length_singleton]
  refine ⟨⟨?_, ?_, ?_⟩, Nat.le_add_right _ _, fun m' hm' hle => ?_, fun m' hm' hm => ?_⟩
  · have h := getElem?_append_cons (p ++ lead) (inner ++ ']' :: e) '['
    rwa [← ho, List.length_append] at h
  · have h := getElem?_append_cons (p ++ lead ++ ['['] ++ inner) e ']'
    rwa [← hc, List.length_append, hp] at h
  · rw [Nat.add_right_comm]
    exact Nat.lt_succ_of_le (Nat.le_add_right _ _)
  · by_contra hlt
    have h := hm'.opening
    rw [ho] at h
    exact hl (mem_of_getElem?_append h hle (Nat.not_le.1 hlt))
  · by_contra hlt
    have h := hm'.closing
    have hgt := hm'.lt
    rw [hc] at h
    rw [hm] at hgt
    refine hi (mem_of_getElem?_append h ?_ ?_)
    · rw [hp]
      exact hgt
    · rw [hp]
      exact Nat.not_le.1 hlt

namespace Template

/-! ## The spans of the slots -/

/-- The spans of slots that begin at position `i`. -/
def spansFrom (i : Nat) : List Slot → List Span
  | [] => []
  | s :: slots =>
    let o := i + s.lead.length
    ⟨o, o + 1 + s.inner.length⟩ :: spansFrom (o + 1 + s.inner.length + 1) slots

/-- Where the slots stand in the text of the template. -/
def spans (t : Template) : List Span := spansFrom 0 t.slots

/-- The template that cutting `s` at the given spans leaves from position `i` on. -/
def ofSpans (s : Text) (i : Nat) : List Span → Template
  | [] => ⟨[], s.drop i⟩
  | m :: ms =>
    push ⟨(s.drop i).take (m.opening - i), (s.drop (m.opening + 1)).take (m.closing - (m.opening + 1))⟩
      (ofSpans s (m.closing + 1) ms)

theorem length_append_slot (p : Text) (s : Slot) :
    (p ++ (s.lead ++ bracketed s.inner)).length =
      p.length + s.lead.length + 1 + s.inner.length + 1 := by
  simp only [bracketed, List.length_append, List.length_cons, List.length_nil]
  omega

-- the induction moves past one slot: what was read before goes to the end of `p`
theorem scan_spansFrom {t : Template} (ht : t.Canonical) (p : Text) :
    Scan (p ++ t.text) p.length (spansFrom p.length t.slots) := by
  induction t, ht using Canonical.induct generalizing p with
  | tail s hs =>
    rw [text_nil]
    exact .done fun m hm => hm.opening_lt hs
  | push s t hl hi ht ih =>
    have hrest := ih (p ++ (s.lead ++ bracketed s.inner))
    rw [length_append_slot, List.append_assoc, ← text_push] at hrest
    refine .next ?_ hrest
    rw [text_push]
    exact isNext_bracketed hl hi p t.text

theorem ofSpans_spansFrom (t : Template) (p : Text) :
    ofSpans (p ++ t.text) p.length (spansFrom p.length t.slots) = t := by
  induction t using pushInduct generalizing p with
  | tail s =>
    rw [text_nil, spansFrom, ofSpans, List.drop_left]
  | push s t ih =>
    have hrest := ih (p ++ (s.lead ++ bracketed s.inner))
    rw [length_append_slot, List.append_assoc, ← text_push] at hrest
    have hl := take_drop_append p s.lead (bracketed s.inner ++ t.text)
    rw [List.append_assoc, ← List.append_assoc s.lead, ← text_push] at hl
    have hi := take_drop_append (p ++ s.lead ++ ['[']) s.inner (']' :: t.text)
    have hs : p ++ s.lead ++ ['['] ++ s.inner ++ ']' :: t.text = p ++ (push s t).text := by
      rw [text_push]
      simp [bracketed]
    have ho : (p ++ s.lead ++ ['[']).length = p.length + s.lead.length + 1 := by
      rw [List.length_append, List.length_append, List.length_singleton]
    rw [hs, ho] at hi
    rw [push, spansFrom, ofSpans, ← push, hrest, Nat.add_sub_cancel_left, Nat.add_sub_cancel_left,
      hl, hi]

theorem scan_iff {s : Text} {ms : List Span} : Scan s 0 ms ↔ ms = (ofText s).spans := by
  have h := scan_spansFrom (canonical_ofText s) []
  rw [text_ofText, List.nil_append, List.length_nil] at h
  exact ⟨fun hms => hms.unique h, fun hms => hms ▸ h⟩

theorem ofSpans_spans (s : Text) : ofSpans s 0 (ofText s).spans = ofText s := by
  have h := ofSpans_spansFrom (ofText s) []
  rwa [text_ofText, List.nil_append, List.length_nil] at h

/-! ## Walking the spans -/

/-- The text between two positions. -/
def between (s : Text) (i j : Nat) : Text := (s.drop i).take (j - i)

/-- What the spans from position `last` on are replaced by, with the text between them. -/
def substituteAt (s : Text) (f : Text → Text) : (last : Nat) → List Span → Text
  | last, [] => s.drop last
  | last, m :: ms =>
    between s last m.opening ++ f (between s (m.opening + 1) m.closing) ++
      substituteAt s f (m.closing + 1) ms

/-- The segment that shows an expression: its value, or its key in brackets if that is blank. -/
def shownSegment (v : Values) (inner : Text) : Segment :=
  let p := Placeholder.ofInner inner
  let value := p.resolve v
  let isFilled := !Text.isBlank value
  { text := if isFilled then value else '[' :: p.key ++ [']'], isPlaceholder := true, isFilled }

/-- The segments from position `last` on: each span gives one, and so does the text before a span
    that does not begin at once, and behind the last span the text that is left. -/
def segmentsAt (s : Text) (v : Values) : (last : Nat) → List Span → List Segment
  | last, [] => if last < s.length then [{ text := s.drop last }] else []
  | last, m :: ms =>
    (if last < m.opening then [{ text := between s last m.opening }] else []) ++
      shownSegment v (between s (m.opening + 1) m.closing) :: segmentsAt s v (m.closing + 1) ms

theorem ofSpans_cons (s : Text) (i : Nat) (m : Span) (ms : List Span) :
    ofSpans s i (m :: ms) =
      push ⟨between s i m.opening, between s (m.opening + 1) m.closing⟩
        (ofSpans s (m.closing + 1) ms) := rfl

theorem substituteAt_eq (s : Text) (f : Text → Text) (i : Nat) (ms : List Span) :
    substituteAt s f i ms = (ofSpans s i ms).substitute f := by
  induction ms generalizing i with
  | nil => rfl
  | cons m ms ih =>
    rw [substituteAt, ofSpans_cons, substitute_push, ih]

theorem shownSegment_eq (v : Values) (inner : Text) :
    shownSegment v inner = Segment.ofInner v inner := by
  rw [shownSegment, Segment.ofInner]
  cases Text.isBlank ((Placeholder.ofInner inner).resolve v) <;> rfl

/-- Walking the spans that a search found gives the segments of the template that is cut there. -/
theorem segmentsAt_eq {s : Text} {i : Nat} {ms : List Span} (h : Scan s i ms) (v : Values) :
    segmentsAt s v i ms = (ofSpans s i ms).segments v := by
  induction h with
  | @done i _ =>
    have hnil : s.drop i = [] ↔ ¬ i < s.length := by rw [List.drop_eq_nil_iff, Nat.not_lt]
    rw [segmentsAt, ofSpans, segments, List.flatMap_nil, List.nil_append, Segment.literal]
    simp only [hnil, ite_not]
  | @next i m ms hm _ ih =>
    -- the span lies in the text, so that the text before it is empty only if it begins at once
    have hnil : between s i m.opening = [] ↔ ¬ i < m.opening := by
      obtain ⟨hlt, -⟩ := List.getElem?_eq_some_iff.1 hm.occurs.opening
      rw [between, List.take_eq_nil_iff, List.drop_eq_nil_iff]
      omega
    rw [segmentsAt, ofSpans_cons, segments_push, ih, shownSegment_eq]
    simp only [Segment.literal, hnil, ite_not]

/-- **A text is a template in exactly one way.**  There is one canonical template with this
    text; a search of the text finds its slots and nothing else, and cutting the text there
    gives the template.  It is what is counted, filled and shown: the filled text and the segments
    are what walking the spans that are found puts together, and so they consist of the literal
    texts, of which those that are empty make no segment, and of what each slot becomes. -/
theorem canonical_matching (s : Text) :
    ∃ t : Template, (∀ t' : Template, t'.Canonical ∧ t'.text = s ↔ t' = t) ∧
      (∀ ms, Scan s 0 ms ↔ ms = t.spans) ∧ ofSpans s 0 t.spans = t ∧
      (ofText s).count = t.slots.length ∧
      ((ofText s).hasSlots = true ↔ 0 < t.slots.length) ∧
      ∀ v : Values,
        (ofText s).fill v =
          substituteAt s (fun inner => (Placeholder.ofInner inner).resolve v) 0 t.spans ∧
        (ofText s).fill v =
          (t.slots.flatMap fun slot => slot.lead ++ (Placeholder.ofInner slot.inner).resolve v) ++
            t.tail ∧
        (ofText s).segments v = segmentsAt s v 0 t.spans ∧
        (ofText s).segments v =
          (t.slots.flatMap fun slot =>
            (if slot.lead = [] then [] else [{ text := slot.lead }]) ++
              [shownSegment v slot.inner]) ++
            if t.tail = [] then [] else [{ text := t.tail }] := by
  refine ⟨ofText s, fun t' => canonical_and_text_eq_iff, fun ms => scan_iff, ofSpans_spans s, rfl,
    ?_, fun v => ⟨?_, rfl, ?_, ?_⟩⟩
  · rw [hasSlots, Bool.not_eq_true', List.isEmpty_eq_false_iff, List.length_pos_iff]
  · rw [substituteAt_eq, ofSpans_spans]
    rfl
  · rw [segmentsAt_eq (scan_iff.2 rfl), ofSpans_spans]
  · simp only [shownSegment_eq]
    rfl

end Template

end PromptFill
