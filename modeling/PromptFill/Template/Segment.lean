/-
  The annotated preview: a template as a list of literal and placeholder segments, and the
  HTML they are shown with.

  A filled placeholder shows its value, an unfilled one its key in brackets.  Empty literal
  texts make no segment.  In the HTML the text of a segment is escaped, and a placeholder
  stands in a span that tells whether it is filled.
-/
import PromptFill.Template.Fill

namespace PromptFill

/-- A run of an annotated preview.  Whether it is filled matters for placeholders only. -/
structure Segment where
  text : Text
  isPlaceholder : Bool := false
  isFilled : Bool := false
deriving DecidableEq, Repr

namespace Segment

/-- The segments of a literal text: one, or none if it is empty. -/
def literal (s : Text) : List Segment := if s = [] then [] else [{ text := s }]

/-- The segment of a slot. -/
def ofInner (v : Values) (inner : Text) : Segment :=
  let p := Placeholder.ofInner inner
  let value := p.resolve v
  if Text.isBlank value then { text := Template.bracketed p.key, isPlaceholder := true }
  else { text := value, isPlaceholder := true, isFilled := true }

/-- A character in HTML: five characters are written as entities. -/
def escapeChar : Char → Text
  | '&' => "&amp;".toList
  | '<' => "&lt;".toList
  | '>' => "&gt;".toList
  | '\x22' => "&quot;".toList
  | '\x27' => "&#x27;".toList
  | c => [c]

/-- A text in HTML. -/
def escape (s : Text) : Text := s.flatMap escapeChar

/-- The tag that opens the span of a placeholder. -/
def openTag (filled : Bool) : Text :=
  if filled then "<span class=\"placeholder filled\">".toList
  else "<span class=\"placeholder empty\">".toList

/-- The tag that closes it. -/
def closeTag : Text := "</span>".toList

/-- A segment in HTML. -/
def html (s : Segment) : Text :=
  if s.isPlaceholder then openTag s.isFilled ++ escape s.text ++ closeTag else escape s.text

/-- Segments in HTML, one after the other. -/
def htmlAll (segments : List Segment) : Text := segments.flatMap html

end Segment

/-- The segments of a template with the given values. -/
def Template.segments (t : Template) (v : Values) : List Segment :=
  t.slots.flatMap (fun s => Segment.literal s.lead ++ [Segment.ofInner v s.inner]) ++
    Segment.literal t.tail

end PromptFill
