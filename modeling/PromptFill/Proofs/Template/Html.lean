/-
  Reading the HTML of segments.

  Cut at its angle brackets, the HTML of segments falls into groups of four pieces: a literal
  text, the inside of an opening tag, the text of a placeholder and the inside of a closing tag.
  `ofHtml` reads it in this way, and `ofHtml_htmlAll` says what it finds: the segments in their
  normal form, with literal segments joined and empty ones left out.

  No escaped text holds an angle bracket or a quotation mark, and an ampersand in it begins an
  entity.  `htmlAll_eq_iff_normal` puts this together.
-/
import Mathlib.Data.List.Chain
import Mathlib.Tactic.ByContra
import PromptFill.Template.Segment

namespace PromptFill

namespace Segment

/-! ## Normal form -/

/-- The segments with a literal text in front, which a literal segment at their head takes up. -/
def consLiteral (s : Text) : List Segment → List Segment
  | [] => literal s
  | seg :: segs =>
    if seg.isPlaceholder then literal s ++ seg :: segs else { text := s ++ seg.text } :: segs

/-- The segments without empty literal ones, adjacent literal ones being joined. -/
def normal : List Segment → List Segment
  | [] => []
  | seg :: segs => if seg.isPlaceholder then seg :: normal segs else consLiteral seg.text (normal segs)

/-- No literal segment is empty, is marked as filled or stands next to another. -/
structure IsNormal (segs : List Segment) : Prop where
  literal : ∀ seg ∈ segs, seg.isPlaceholder = false → seg.text ≠ [] ∧ seg.isFilled = false
  chain : segs.IsChain fun a b => a.isPlaceholder = true ∨ b.isPlaceholder = true

theorem normal_literal {seg : Segment} (h : seg.isPlaceholder = false) (segs : List Segment) :
    normal (seg :: segs) = consLiteral seg.text (normal segs) := by
  rw [normal, h]
  rfl

theorem normal_placeholder {seg : Segment} (h : seg.isPlaceholder = true) (segs : List Segment) :
    normal (seg :: segs) = seg :: normal segs := by
  rw [normal, if_pos h]

theorem consLiteral_nil {segs : List Segment} (h : IsNormal segs) : consLiteral [] segs = segs := by
  cases segs with
  | nil => rfl
  | cons seg segs =>
    obtain ⟨s, p, f⟩ := seg
    cases p with
    | true => rfl
    | false =>
      obtain ⟨-, hf⟩ := h.literal _ List.mem_cons_self rfl
      dsimp only at hf
      rw [hf]
      rfl

theorem consLiteral_consLiteral (s t : Text) (segs : List Segment) :
    consLiteral s (consLiteral t segs) = consLiteral (s ++ t) segs := by
  have hl : ∀ rest, (∀ u, consLiteral u rest = literal u ++ rest) →
      consLiteral s (consLiteral t rest) = consLiteral (s ++ t) rest := by
    intro rest h
    by_cases ht : t = []
    · have hn : consLiteral [] rest = rest := by rw [h]; rfl
      rw [ht, List.append_nil, hn]
    · rw [h, h]
      simp [literal, ht, consLiteral]
  cases segs with
  | nil => exact hl [] fun u => (List.append_nil (literal u)).symm
  | cons seg segs =>
    cases hp : seg.isPlaceholder with
    | true => exact hl _ fun u => by rw [consLiteral, if_pos hp]
    | false => simp [consLiteral, hp]

theorem isNormal_consLiteral {s : Text} {segs : List Segment} (h : IsNormal segs) :
    IsNormal (consLiteral s segs) := by
  by_cases hs : s = []
  · rw [hs, consLiteral_nil h]
    exact h
  have hl : literal s = [{ text := s }] := if_neg hs
  cases segs with
  | nil =>
    rw [consLiteral, hl]
    exact ⟨by simp [hs], by simp⟩
  | cons seg segs =>
    cases hp : seg.isPlaceholder with
    | true =>
      rw [consLiteral, if_pos hp, hl]
      refine ⟨?_, List.isChain_cons_cons.2 ⟨Or.inr hp, h.chain⟩⟩
      rintro seg' (_ | ⟨_, hm⟩) hf
      · exact ⟨hs, rfl⟩
      · exact h.literal seg' hm hf
    | false =>
      rw [consLiteral, if_neg (by simp [hp])]
      refine ⟨?_, ?_⟩
      · rintro seg' (_ | ⟨_, hm⟩) hf
        · exact ⟨by simp [hs], rfl⟩
        · exact h.literal seg' (List.mem_cons_of_mem seg hm) hf
      · have hc := h.chain
        cases segs with
        | nil => simp
        | cons next segs =>
          rw [List.isChain_cons_cons] at hc ⊢
          rwa [hp] at hc

theorem isNormal_normal (segs : List Segment) : IsNormal (normal segs) := by
  induction segs with
  | nil => exact ⟨by simp [normal], by simp [normal]⟩
  | cons seg segs ih =>
    cases hp : seg.isPlaceholder with
    | false =>
      rw [normal_literal hp]
      exact isNormal_consLiteral ih
    | true =>
      rw [normal_placeholder hp]
      refine ⟨?_, ?_⟩
      · rintro seg' (_ | ⟨_, hm⟩) hf
        · rw [hp] at hf
          cases hf
        · exact ih.literal seg' hm hf
      · have hc := ih.chain
        cases hn : normal segs with
        | nil => simp
        | cons next rest =>
          rw [hn] at hc
          exact List.isChain_cons_cons.2 ⟨Or.inl hp, hc⟩

/-! ## Escaped texts -/

/-- The characters that are written as entities. -/
def specials : List Char := ['&', '<', '>', '\x22', '\x27']

/-- The entities they are written as. -/
def entities : List Text :=
  ["&amp;".toList, "&lt;".toList, "&gt;".toList, "&quot;".toList, "&#x27;".toList]

/-- Whether a character is an angle bracket. -/
def isAngle (c : Char) : Bool := c = '<' || c = '>'

/-- The text that an escaped text stands for. -/
def unescape : Text → Text
  | '&' :: 'a' :: 'm' :: 'p' :: ';' :: s => '&' :: unescape s
  | '&' :: 'l' :: 't' :: ';' :: s => '<' :: unescape s
  | '&' :: 'g' :: 't' :: ';' :: s => '>' :: unescape s
  | '&' :: 'q' :: 'u' :: 'o' :: 't' :: ';' :: s => '\x22' :: unescape s
  | '&' :: '#' :: 'x' :: '2' :: '7' :: ';' :: s => '\x27' :: unescape s
  | c :: s => c :: unescape s
  | [] => []

theorem escapeChar_mem_or (c : Char) :
    escapeChar c ∈ entities ∨ (escapeChar c = [c] ∧ c ∉ specials) := by
  unfold escapeChar
  split
  case h_6 h₁ h₂ h₃ h₄ h₅ =>
    refine Or.inr ⟨rfl, ?_⟩
    simp only [specials, List.mem_cons, List.not_mem_nil, or_false, not_or]
    exact ⟨h₁, h₂, h₃, h₄, h₅⟩
  all_goals exact Or.inl (by decide)

theorem unescape_cons {c : Char} (h : c ≠ '&') (s : Text) : unescape (c :: s) = c :: unescape s := by
  rw [unescape] <;> rintro _ rfl <;> exact absurd rfl h

theorem unescape_escapeChar_append (c : Char) (s : Text) :
    unescape (escapeChar c ++ s) = c :: unescape s := by
  unfold escapeChar
  split
  case h_6 h _ _ _ _ => exact unescape_cons h s
  all_goals simp [unescape]

theorem unescape_escape (s : Text) : unescape (escape s) = s := by
  induction s with
  | nil => rfl
  | cons c s ih => rw [escape, List.flatMap_cons, unescape_escapeChar_append, ← escape, ih]

theorem escape_append (s t : Text) : escape (s ++ t) = escape s ++ escape t :=
  List.flatMap_append

/-- An ampersand aside, no character that is written as an entity is left. -/
theorem not_mem_escape {c : Char} {s : Text} (hc : c ∈ specials) (h : c ≠ '&') : c ∉ escape s := by
  intro hm
  obtain ⟨x, -, hx⟩ := List.mem_flatMap.1 hm
  obtain he | ⟨he, hn⟩ := escapeChar_mem_or x
  · have hent : ∀ e ∈ entities, ∀ c ∈ specials, c ≠ '&' → c ∉ e := by simp [entities, specials]
    exact hent _ he c hc h hx
  · rw [he, List.mem_singleton] at hx
    exact hn (hx ▸ hc)

theorem isAngle_of_mem_escape {s : Text} : ∀ c ∈ escape s, isAngle c = false := by
  intro c hc
  by_contra h
  rw [Bool.not_eq_false, isAngle, Bool.or_eq_true, decide_eq_true_eq, decide_eq_true_eq] at h
  rcases h with rfl | rfl
  · exact not_mem_escape (by decide) (by decide) hc
  · exact not_mem_escape (by decide) (by decide) hc

/-! ## Reading -/

/-- The segments of the pieces between angle brackets. -/
def ofPieces : List Text → List Segment
  | lead :: tag :: inside :: _ :: pieces =>
    literal (unescape lead) ++
      { text := unescape inside, isPlaceholder := true
        isFilled := '<' :: tag ++ ['>'] = openTag true } :: ofPieces pieces
  | lead :: _ => literal (unescape lead)
  | [] => []

/-- The segments that an HTML text shows. -/
def ofHtml (s : Text) : List Segment := ofPieces (s.splitOnP isAngle)

theorem forall_isAngle_eq_false {s : Text} (h : s.any isAngle = false) :
    ∀ c ∈ s, isAngle c = false := by
  simpa using h

theorem openTag_eq_tag (filled : Bool) :
    ∃ tag, openTag filled = '<' :: tag ++ ['>'] ∧ (∀ c ∈ tag, isAngle c = false) ∧
      decide ('<' :: tag ++ ['>'] = openTag true) = filled := by
  cases filled
  · exact ⟨"span class=\"placeholder empty\"".toList, rfl, forall_isAngle_eq_false rfl, by decide⟩
  · exact ⟨"span class=\"placeholder filled\"".toList, rfl, forall_isAngle_eq_false rfl, by decide⟩

theorem ofHtml_escape (s : Text) : ofHtml (escape s) = literal s := by
  rw [ofHtml, List.splitOnP_eq_singleton isAngle_of_mem_escape, ofPieces, unescape_escape]
  simp

theorem ofHtml_placeholder {seg : Segment} (h : seg.isPlaceholder = true) (s t : Text) :
    ofHtml (escape s ++ (html seg ++ t)) = literal s ++ seg :: ofHtml t := by
  obtain ⟨text, p, filled⟩ := seg
  obtain ⟨tag, ht, ha, hf⟩ := openTag_eq_tag filled
  have hc : closeTag = '<' :: "/span".toList ++ ['>'] := rfl
  have hs : escape s ++ (html ⟨text, p, filled⟩ ++ t) =
      escape s ++ '<' :: (tag ++ '>' :: (escape text ++ '<' :: ("/span".toList ++ '>' :: t))) := by
    rw [html, if_pos h, ht, hc]
    simp
  rw [hs, ofHtml, List.splitOnP_append_cons_of_forall_mem isAngle_of_mem_escape _ rfl,
    List.splitOnP_append_cons_of_forall_mem ha _ rfl,
    List.splitOnP_append_cons_of_forall_mem isAngle_of_mem_escape _ rfl,
    List.splitOnP_append_cons_of_forall_mem (forall_isAngle_eq_false rfl) _ rfl, ofPieces,
    unescape_escape, unescape_escape, hf, ← ofHtml]
  rw [show p = true from h]

-- what was read of a literal text so far goes to the front of the next segment
theorem ofHtml_escape_append (s : Text) (segs : List Segment) :
    ofHtml (escape s ++ htmlAll segs) = consLiteral s (normal segs) := by
  induction segs generalizing s with
  | nil =>
    rw [htmlAll, List.flatMap_nil, List.append_nil]
    exact ofHtml_escape s
  | cons seg segs ih =>
    rw [htmlAll, List.flatMap_cons, ← htmlAll]
    cases hp : seg.isPlaceholder with
    | true =>
      have hrest : ofHtml (htmlAll segs) = normal segs := by
        rw [← consLiteral_nil (isNormal_normal segs), ← ih]
        rfl
      rw [ofHtml_placeholder hp, hrest, normal_placeholder hp, consLiteral, if_pos hp]
    | false =>
      have hh : html seg = escape seg.text := by rw [html, hp]; rfl
      rw [hh, ← List.append_assoc, ← escape_append, ih, normal_literal hp, consLiteral_consLiteral]

/-- The HTML of segments shows them in their normal form. -/
theorem ofHtml_htmlAll (segs : List Segment) : ofHtml (htmlAll segs) = normal segs := by
  rw [← consLiteral_nil (isNormal_normal segs), ← ofHtml_escape_append]
  rfl

theorem htmlAll_consLiteral (s : Text) (segs : List Segment) :
    htmlAll (consLiteral s segs) = escape s ++ htmlAll segs := by
  have hl : htmlAll (literal s) = escape s := by
    by_cases hs : s = []
    · rw [hs]
      rfl
    · simp [literal, hs, htmlAll, html]
  cases segs with
  | nil => rw [consLiteral, hl, htmlAll, List.flatMap_nil, List.append_nil]
  | cons seg segs =>
    cases hp : seg.isPlaceholder with
    | true =>
      rw [consLiteral, if_pos hp, htmlAll, List.flatMap_append, ← htmlAll, ← htmlAll, hl]
    | false => simp [consLiteral, hp, htmlAll, html, escape_append]

theorem htmlAll_normal (segs : List Segment) : htmlAll (normal segs) = htmlAll segs := by
  induction segs with
  | nil => rfl
  | cons seg segs ih =>
    have hc : htmlAll (seg :: segs) = html seg ++ htmlAll segs := List.flatMap_cons
    cases hp : seg.isPlaceholder with
    | true =>
      rw [normal_placeholder hp, hc, ← ih]
      exact List.flatMap_cons
    | false =>
      rw [normal_literal hp, htmlAll_consLiteral, hc, ih, html, hp]
      rfl

/-! ## Where special characters stand -/

/-- The character `c` behind `a` in the HTML of the segments belongs to the opening or to the
    closing tag of one of the placeholder segments. -/
inductive InTag (segs : List Segment) (a : Text) (c : Char) : Prop
  | opening {before seg behind t t'} : segs = before ++ seg :: behind → seg.isPlaceholder = true →
      openTag seg.isFilled = t ++ c :: t' → a = htmlAll before ++ t → InTag segs a c
  | closing {before seg behind t t'} : segs = before ++ seg :: behind → seg.isPlaceholder = true →
      closeTag = t ++ c :: t' →
      a = htmlAll before ++ (openTag seg.isFilled ++ (escape seg.text ++ t)) → InTag segs a c

theorem append_eq_append_cons {α : Type} {x y a b : List α} {c : α} (h : x ++ y = a ++ c :: b) :
    (∃ a', a = x ++ a' ∧ y = a' ++ c :: b) ∨ ∃ b', x = a ++ c :: b' ∧ b = b' ++ y := by
  rcases List.append_eq_append_iff.1 h with h | ⟨bs, hx, hc⟩
  · exact Or.inl h
  · cases bs with
    | nil => exact Or.inl ⟨[], by simpa using hx.symm, hc.symm⟩
    | cons d bs =>
      obtain ⟨rfl, hb⟩ := List.cons.inj hc
      exact Or.inr ⟨bs, hx, hb⟩

/-- A place in texts put together lies in one of them. -/
theorem flatMap_eq_append_cons {α β : Type} {f : α → List β} {l : List α} {a b : List β} {c : β}
    (h : l.flatMap f = a ++ c :: b) :
    ∃ before x behind a' b', l = before ++ x :: behind ∧ a = before.flatMap f ++ a' ∧
      f x = a' ++ c :: b' ∧ b = b' ++ behind.flatMap f := by
  induction l generalizing a with
  | nil => simp at h
  | cons x l ih =>
    rw [List.flatMap_cons] at h
    rcases append_eq_append_cons h with ⟨a', rfl, h'⟩ | ⟨b', hx, hb⟩
    · obtain ⟨before, y, behind, a', b', rfl, rfl, hy, hb⟩ := ih h'
      exact ⟨x :: before, y, behind, a', b', rfl, by simp, hy, hb⟩
    · exact ⟨[], x, l, a, b', rfl, rfl, hx, hb⟩

/-- A special character other than an ampersand stands in a tag. -/
theorem inTag_of_htmlAll_eq {segs : List Segment} {a b : Text} {c : Char}
    (hc : c ∈ specials) (hn : c ≠ '&') (h : htmlAll segs = a ++ c :: b) : InTag segs a c := by
  obtain ⟨before, seg, behind, t, t', hs, rfl, hh, -⟩ := flatMap_eq_append_cons h
  have hesc : ∀ a b, escape seg.text ≠ a ++ c :: b := by
    intro a b he
    exact not_mem_escape hc hn (he ▸ List.mem_append_right a List.mem_cons_self)
  cases hp : seg.isPlaceholder with
  | false =>
    rw [html, hp] at hh
    exact absurd hh (hesc t t')
  | true =>
    rw [html, if_pos hp, List.append_assoc] at hh
    rcases append_eq_append_cons hh with ⟨u, rfl, hr⟩ | ⟨b, ho, -⟩
    · rcases append_eq_append_cons hr with ⟨u', rfl, hc⟩ | ⟨b, he, -⟩
      · exact .closing hs hp hc rfl
      · exact absurd he (hesc u b)
    · exact .opening hs hp ho rfl

theorem exists_entity_of_escape_eq {s a b : Text} (h : escape s = a ++ '&' :: b) :
    ∃ e ∈ entities, e <+: '&' :: b := by
  obtain ⟨-, x, -, t, t', -, -, hx, rfl⟩ := flatMap_eq_append_cons h
  obtain he | ⟨hx', hn⟩ := escapeChar_mem_or x
  · -- an entity holds one ampersand, at its head
    have hhead : ∀ e ∈ entities, ∃ r, e = '&' :: r ∧ '&' ∉ r := by
      simp only [entities, List.forall_mem_cons]
      exact ⟨⟨_, rfl, by decide⟩, ⟨_, rfl, by decide⟩, ⟨_, rfl, by decide⟩, ⟨_, rfl, by decide⟩,
        ⟨_, rfl, by decide⟩, by simp⟩
    obtain ⟨r, hr, hr'⟩ := hhead _ he
    rw [hr] at hx
    cases t with
    | nil =>
      obtain ⟨-, rfl⟩ := List.cons.inj hx
      exact ⟨_, hr ▸ he, List.prefix_append ('&' :: r) _⟩
    | cons y t =>
      obtain ⟨-, rfl⟩ := List.cons.inj hx
      exact absurd (List.mem_append_right t List.mem_cons_self) hr'
  · rw [hx'] at hx
    have hm : '&' ∈ [x] := hx ▸ List.mem_append_right t List.mem_cons_self
    rw [← List.mem_singleton.1 hm] at hn
    exact absurd (by decide) hn

theorem not_mem_tag (filled : Bool) : '&' ∉ openTag filled ∧ '&' ∉ closeTag := by
  cases filled <;> decide

/-- An ampersand begins an entity. -/
theorem exists_entity_of_htmlAll_eq {segs : List Segment} {a b : Text}
    (h : htmlAll segs = a ++ '&' :: b) : ∃ e ∈ entities, e <+: '&' :: b := by
  obtain ⟨-, seg, -, t, t', -, -, hh, rfl⟩ := flatMap_eq_append_cons h
  have hseg : ∃ e ∈ entities, e <+: '&' :: t' := by
    cases hp : seg.isPlaceholder with
    | false =>
      rw [html, hp] at hh
      exact exists_entity_of_escape_eq hh
    | true =>
      rw [html, if_pos hp, List.append_assoc] at hh
      obtain ⟨ho, hc⟩ := not_mem_tag seg.isFilled
      rcases append_eq_append_cons hh with ⟨u, -, hr⟩ | ⟨b, hb, -⟩
      · rcases append_eq_append_cons hr with ⟨u', -, hb⟩ | ⟨b, hb, rfl⟩
        · exact absurd (hb ▸ List.mem_append_right u' List.mem_cons_self) hc
        · obtain ⟨e, hm, hpre⟩ := exists_entity_of_escape_eq hb
          exact ⟨e, hm, hpre.trans (List.prefix_append ('&' :: b) closeTag)⟩
      · exact absurd (hb ▸ List.mem_append_right t List.mem_cons_self) ho
  obtain ⟨e, hm, hpre⟩ := hseg
  exact ⟨e, hm, hpre.trans (List.prefix_append ('&' :: t') _)⟩

/-- **HTML shows segments and nothing else.**  Two lists of segments have the same HTML exactly
    if they have the same normal form, which can be read back from it.  Angle brackets and
    quotation marks stand in the tags of placeholder segments only, and every ampersand begins
    an entity. -/
theorem htmlAll_eq_iff_normal :
    (∀ segs segs', htmlAll segs = htmlAll segs' ↔ normal segs = normal segs') ∧
      (∀ segs, ofHtml (htmlAll segs) = normal segs ∧ IsNormal (normal segs)) ∧
      (∀ segs a c b, htmlAll segs = a ++ c :: b → c ∈ ['<', '>', '\x22', '\x27'] →
        InTag segs a c) ∧
      ∀ segs a b, htmlAll segs = a ++ '&' :: b → ∃ e ∈ entities, e <+: '&' :: b := by
  refine ⟨fun segs segs' => ⟨fun h => ?_, fun h => ?_⟩,
    fun segs => ⟨ofHtml_htmlAll segs, isNormal_normal segs⟩, fun segs a c b h hc => ?_,
    fun segs a b h => exists_entity_of_htmlAll_eq h⟩
  · rw [← ofHtml_htmlAll, h, ofHtml_htmlAll]
  · rw [← htmlAll_normal, h, htmlAll_normal]
  · have hs : ∀ c ∈ ['<', '>', '\x22', '\x27'], c ∈ specials ∧ c ≠ '&' := by simp [specials]
    exact inTag_of_htmlAll_eq (hs c hc).1 (hs c hc).2 h

end Segment

end PromptFill
