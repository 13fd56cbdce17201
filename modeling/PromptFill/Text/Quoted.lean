/-
  The quoted form of a text, in which messages show paths and names.

  The text stands between apostrophes, or between double quotes if it holds an apostrophe
  and no double quote.  The mark in use and the backslash take a backslash in front;
  characters that are not printable show as escapes.
-/
import PromptFill.Text.Printable

namespace PromptFill.Text

/-- The mark a text is quoted with. -/
def quoteMark (s : Text) : Char :=
  if '\x27' ∈ s ∧ '\x22' ∉ s then '\x22' else '\x27'

/-- The escape of a character by its code point, in two, four or eight digits. -/
def codeEscape (c : Char) : Text :=
  if c.toNat < 0x100 then '\\' :: 'x' :: hex 2 c.toNat
  else if c.toNat < 0x10000 then '\\' :: 'u' :: hex 4 c.toNat
  else '\\' :: 'U' :: hex 8 c.toNat

/-- A character between the marks `q`. -/
def quotedChar (q c : Char) : Text :=
  if c = q ∨ c = '\\' then ['\\', c]
  else if c = '\n' then ['\\', 'n']
  else if c = '\r' then ['\\', 'r']
  else if c = '\t' then ['\\', 't']
  else if isPrintable c then [c]
  else codeEscape c

/-- The quoted form of a text. -/
def quoted (s : Text) : Text :=
  let q := quoteMark s
  q :: s.flatMap (quotedChar q) ++ [q]

end PromptFill.Text
