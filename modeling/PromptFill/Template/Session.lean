/-
  A session: a template with the values entered for it so far, and the edits one can make.
-/
import PromptFill.Template.Form
import PromptFill.Template.Segment
import PromptFill.Template.Warning

namespace PromptFill

/-- A template text and the values entered for it. -/
structure Session where
  text : Text
  values : Values

/-- What can be done in a session. -/
inductive Edit where
  /-- Enter a value. -/
  | set (key : Text) (value : Option Text)
  /-- Take a key out. -/
  | unset (key : Text)
  /-- Reset the inputs to the defaults. -/
  | restore
  /-- Start over with the defaults alone. -/
  | start
  /-- Replace the template and keep the values. -/
  | replace (text : Text)
  /-- Make the filled text the template. -/
  | apply
  /-- Make the preview the template. -/
  | applyPreview

namespace Session

/-- The template of a session. -/
def template (s : Session) : Template := Template.ofText s.text

/-- The placeholders that the template asks for. -/
def placeholders (s : Session) : List Placeholder := s.template.placeholders

/-- The session in which a template is opened. -/
def ofText (text : Text) : Session := ⟨text, Form.initial (Template.ofText text).placeholders⟩

/-- The session after an edit. -/
def edit (s : Session) : Edit → Session
  | .set key value => { s with values := s.values.set key value }
  | .unset key => { s with values := s.values.unset key }
  | .restore => { s with values := Form.restore s.values s.placeholders }
  | .start => { s with values := Form.initial s.placeholders }
  | .replace text => { s with text := text }
  | .apply => { s with text := s.template.fill s.values }
  | .applyPreview => { s with text := s.template.preview s.values }

/-- The sessions before, between and after edits. -/
def history (s : Session) : List Edit → List Session
  | [] => [s]
  | e :: es => s :: history (s.edit e) es

end Session

end PromptFill
