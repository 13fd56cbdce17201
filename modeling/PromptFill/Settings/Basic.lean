/-
  The settings of the program.

  Settings are entries by name, the colour scheme and the debugging mode among them.  What
  a file holds is set over the defaults; a variable of the environment switches debugging on.

  `Json.scheme?` finds the scheme that a stored value names.  A value that counts as false
  and one that is no name choose nothing; a list or an object with something in it cannot be
  looked up at all.
-/
import PromptFill.Colour.Scheme
import PromptFill.Fault
import PromptFill.Json.Basic

namespace PromptFill

/-- Settings by name. -/
abbrev Settings := Table Text Json

namespace Settings

/-- The name of the entry for the colour scheme. -/
def schemeKey : Text := "preview_color_scheme".toList

/-- The name of the entry for the debugging mode. -/
def debugKey : Text := "debug_mode".toList

/-- The settings in use where nothing is stored. -/
def default : Settings := [(schemeKey, .string Scheme.default.name), (debugKey, .bool false)]

/-- The stored entries over the defaults. -/
def ofStored (stored : Settings) : Settings := default.update stored

/-- A letter in lower case, among the letters of ASCII. -/
def lower (s : Text) : Text := s.map Char.toLower

/-- Whether the value of the environment variable switches debugging on. -/
def switchesOn (value : Text) : Bool :=
  ["1".toList, "true".toList, "yes".toList].contains (lower value)

/-- The settings with debugging switched on by the environment, if it is. -/
def withEnvironment (s : Settings) (value : Option Text) : Settings :=
  if value.any switchesOn then s.set debugKey (.bool true) else s

/-- Whether the settings ask for debugging. -/
def wantsDebug (s : Settings) : Bool := ((s.get? debugKey).map Json.isTrue).getD false

end Settings

namespace Json

/-- How a message calls the type of a value. -/
def typeName : Json → Text
  | null => "NoneType".toList
  | bool _ => "bool".toList
  | int _ => "int".toList
  | float _ => "float".toList
  | string _ => "str".toList
  | list _ => "list".toList
  | object _ => "dict".toList

/-- How a message shows a value that may stand for a name.  Of a list or an object there is
    nothing to show but its brackets, since only an empty one gets that far. -/
def shown : Json → Text
  | null => "None".toList
  | bool b => if b then "True".toList else "False".toList
  | int i => Text.signedDecimal i
  | float x => x.text
  | string s => s
  | list _ => ['[', ']']
  | object _ => ['\x7b', '\x7d']

/-- The scheme that a value names. -/
def scheme? (v : Json) : Except Fault (Option Scheme) :=
  if v.isTrue then
    match v with
    | string s => .ok (Scheme.ofName? s)
    | list _ | object _ => .error (.notAName v.typeName)
    | _ => .ok none
  else .ok none

/-- The value stored for the colour scheme, null if there is none. -/
def storedScheme (settings : Json) : Except Fault Json :=
  match settings with
  | object fields => .ok ((Table.get? fields Settings.schemeKey).getD null)
  | _ => .error (.noEntries settings.typeName)

end Json

end PromptFill
