/-
  The values that are to go into the slots of a template, by key.

  A key may be absent or have no value; both count like a blank value.  The live value of a
  key is the value that counts, and what a slot resolves to is the live value of its key or
  else the default that the slot itself gives.
-/
import PromptFill.Table
import PromptFill.Template.Placeholder

namespace PromptFill

/-- Values by key. -/
abbrev Values := Table Text (Option Text)

/-- Whether a value is missing or blank. -/
def isBlankValue : Option Text → Bool
  | none => true
  | some s => Text.isBlank s

namespace Values

/-- The value of a key, unless it is missing or blank. -/
def live? (v : Values) (key : Text) : Option Text :=
  match v.get? key with
  | some (some s) => if Text.isBlank s then none else some s
  | _ => none

end Values

/-- What a placeholder is replaced by: the live value of its key, or else its default. -/
def Placeholder.resolve (p : Placeholder) (v : Values) : Text :=
  (v.live? p.key).getD p.defaultValue

end PromptFill
