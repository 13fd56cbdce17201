/-
  Placeholders: the named slots of a prompt template.

  A placeholder has a key, a kind of input, a default value and, for a dropdown, its
  choices.  `ofInner` reads it from the text between two brackets:

      label                     a line of text without default
      label=default             a line of text, or several lines if the default is long
      label=one,two,three       a dropdown, with the empty choice in front
-/
import PromptFill.Text.Blank
import PromptFill.Text.Quoted

namespace PromptFill

/-- The kinds of input. -/
inductive Kind where
  | text
  | multiline
  | dropdown
deriving DecidableEq, Repr

namespace Kind

/-- The name a kind is written with. -/
def name : Kind → Text
  | text => "text".toList
  | multiline => "multiline_text".toList
  | dropdown => "dropdown".toList

/-- The kind of that name. -/
def ofName? (s : Text) : Option Kind := [text, multiline, dropdown].find? fun k => k.name = s

/-- What is said about a name that no kind has. -/
def unknownMessage (s : Text) : Text :=
  Text.quoted s ++ " is not a valid PlaceholderKind".toList

/-- Every kind is found by its name. -/
theorem ofName?_name (k : Kind) : ofName? k.name = some k := by cases k <;> rfl

end Kind

/-- A named slot. -/
structure Placeholder where
  key : Text
  kind : Kind := .text
  defaultValue : Text := []
  options : List Text := []
deriving DecidableEq, Repr

namespace Placeholder

/-- A default of more characters than this gets an input of several lines. -/
def multilineThreshold : Nat := 60

/-- The parts of a text between commas, trimmed. -/
def choices (s : Text) : List Text := (s.splitOn ',').map Text.trim

/-- Whether the parts are the choices of a dropdown: two or more, and none of them empty. -/
def areChoices (parts : List Text) : Bool := 2 ≤ parts.length && parts.all (· ≠ [])

/-- The placeholder with the given key and the text after its first equals sign. -/
def ofEntry (key entry : Text) : Placeholder :=
  if areChoices (choices entry) then
    { key, kind := .dropdown, options := [] :: choices entry }
  else if multilineThreshold < entry.length ∨ '\n' ∈ entry then
    { key, kind := .multiline, defaultValue := Text.trim entry }
  else
    { key, kind := .text, defaultValue := Text.trim entry }

/-- The placeholder that the text between two brackets describes. -/
def ofInner (inner : Text) : Placeholder :=
  match Text.cutAt '=' (Text.trim inner) with
  | none => { key := Text.trim inner }
  | some (label, entry) => ofEntry (Text.trim label) entry

/-- Whether a value is chosen from a list. -/
def isDropdown (p : Placeholder) : Bool := p.kind = .dropdown

/-- Whether a value may have several lines. -/
def isMultiline (p : Placeholder) : Bool := p.kind = .multiline

end Placeholder

end PromptFill
