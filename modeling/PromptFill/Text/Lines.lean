/-
  Lines of a text.

  `unifyNewlines` is what reading a text file does to line ends: a carriage return, alone
  or before a line feed, becomes one line feed.  `lines` cuts a text at every line break
  of the Unicode standard; a break at the end starts no further line.
-/
import PromptFill.Text.Basic

namespace PromptFill

/-- The code points that end a line, apart from the pair of carriage return and line feed. -/
def lineBreaks : List Nat :=
  [0x0A, 0x0B, 0x0C, 0x0D, 0x1C, 0x1D, 0x1E, 0x85, 0x2028, 0x2029]

/-- Whether a character ends a line. -/
def isLineBreak (c : Char) : Bool := lineBreaks.contains c.toNat

namespace Text

/-- The text with every line end written as one line feed. -/
def unifyNewlines : Text → Text
  | [] => []
  | '\r' :: '\n' :: s => '\n' :: unifyNewlines s
  | '\r' :: s => '\n' :: unifyNewlines s
  | c :: s => c :: unifyNewlines s

/-- The lines of a text whose line ends are unified, without their breaks. -/
def lines : Text → List Text
  | [] => []
  | c :: s =>
    if isLineBreak c then [] :: lines s
    else match lines s with
      | [] => [[c]]
      | l :: ls => (c :: l) :: ls

end Text

end PromptFill
