/-
  The form in which values are entered.

  The form starts with the defaults, and with the empty choice in a dropdown.  Restoring the
  defaults sets the keys of the form and leaves the others alone.  A key is missing if the
  slot would be replaced by nothing.
-/
import PromptFill.Template.Values

namespace PromptFill.Form

/-- The value an input starts with. -/
def initialValue (p : Placeholder) : Text := if p.isDropdown then [] else p.defaultValue

/-- The values the form starts with. -/
def initial (ps : List Placeholder) : Values :=
  Table.ofList (ps.map fun p => (p.key, some (initialValue p)))

/-- The values after the inputs of the form were reset. -/
def restore (v : Values) (ps : List Placeholder) : Values := v.update (initial ps)

/-- Whether a placeholder has neither a live value nor a default. -/
def isMissing (v : Values) (p : Placeholder) : Bool :=
  (v.live? p.key).isNone && Text.isBlank p.defaultValue

/-- The keys that would be replaced by nothing, in order. -/
def missing (ps : List Placeholder) (v : Values) : List Text :=
  (ps.filter (isMissing v)).map Placeholder.key

end PromptFill.Form
