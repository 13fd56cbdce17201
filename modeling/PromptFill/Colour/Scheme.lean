/-
  The colour schemes of a preview.

  A scheme has a background and a text colour for empty and for filled placeholders.  It is
  chosen by name; `ofName?` finds it, and `styleSheet` writes it out.
-/
import PromptFill.Colour.Argb

namespace PromptFill

/-- The colour schemes. -/
inductive Scheme where
  | redGreen
  | blackWhite
  | whiteBlack
  | blueOrange
deriving DecidableEq, Repr

/-- The two colours of a placeholder. -/
structure Colours where
  background : Int
  text : Int
deriving DecidableEq, Repr

namespace Scheme

/-- All schemes, in the order in which they are offered. -/
def all : List Scheme := [redGreen, blackWhite, whiteBlack, blueOrange]

/-- The scheme in use where none is chosen. -/
def default : Scheme := redGreen

/-- The name a scheme is chosen and stored by. -/
def name : Scheme → Text
  | redGreen => "RED_GREEN".toList
  | blackWhite => "BLACK_WHITE".toList
  | whiteBlack => "WHITE_BLACK".toList
  | blueOrange => "BLUE_ORANGE".toList

/-- The name shown to the user. -/
def displayName : Scheme → Text
  | redGreen => "Red/Green".toList
  | blackWhite => "Black/White".toList
  | whiteBlack => "White/Black (inverted)".toList
  | blueOrange => "Blue/Orange".toList

/-- The scheme of that name. -/
def ofName? (s : Text) : Option Scheme := all.find? fun scheme => scheme.name = s

/-- The colours of an empty placeholder. -/
def empty : Scheme → Colours
  | redGreen => ⟨0x40F44336, 0xFFF44336⟩
  | blackWhite => ⟨0x40757575, 0xFF757575⟩
  | whiteBlack => ⟨0x40BDBDBD, 0xFFBDBDBD⟩
  | blueOrange => ⟨0x402196F3, 0xFF2196F3⟩

/-- The colours of a filled placeholder. -/
def filled : Scheme → Colours
  | redGreen => ⟨0x4000C853, 0xFF00C853⟩
  | blackWhite => ⟨0x40212121, 0xFF212121⟩
  | whiteBlack => ⟨0x40FFFFFF, 0xFFFFFFFF⟩
  | blueOrange => ⟨0x40FF9800, 0xFFFF9800⟩

/-- The colours of a placeholder. -/
def colours (scheme : Scheme) (isFilled : Bool) : Colours :=
  if isFilled then scheme.filled else scheme.empty

/-- The lines of a style sheet that set the two colours. -/
def declarations (c : Colours) : Text :=
  "    background-color: ".toList ++ Argb.css c.background ++ ";\n    color: ".toList ++
    Argb.css c.text ++ ";\n".toList

/-- The style sheet of a preview in a scheme. -/
def styleSheet (scheme : Scheme) : Text :=
  "\n<style>\n.placeholder \x7b\n    padding: 0 2px;\n    border-radius: 3px;\n\x7d\n".toList ++
    ".placeholder.filled \x7b\n".toList ++ declarations scheme.filled ++ "\x7d\n".toList ++
    ".placeholder.empty \x7b\n".toList ++ declarations scheme.empty ++
    "    font-weight: 600;\n\x7d\n".toList ++
    "pre \x7b\n    white-space: pre-wrap;\n".toList ++
    "    font-family: \"JetBrains Mono\", \"Courier New\", monospace;\n\x7d\n</style>\n".toList

/-- Every scheme is found by its name. -/
theorem ofName?_name (scheme : Scheme) : ofName? scheme.name = some scheme := by
  cases scheme <;> rfl

end Scheme

end PromptFill
