/-
  Writing JSON values.

  Items and fields stand on lines of their own, indented by two spaces a level; an empty
  list or object has its two brackets together.  Strings are written in printable ASCII:
  every other character becomes an escape, or a pair of them outside the basic plane.

  Writing stops at an integer that is too long.  What `cutShort?` says was written by then
  ends before the integer; an integer in a list is written in one piece with the comma and
  the line before it, so these are missing as well.
-/
import PromptFill.Json.Basic

namespace PromptFill.Json

/-- The escape of a UTF-16 unit. -/
def unitEscape (u : Nat) : Text := '\\' :: 'u' :: Text.hex 4 u

/-- The escapes of a character by its one or two UTF-16 units. -/
def codeEscape (c : Char) : Text :=
  if c.toNat < 0x10000 then unitEscape c.toNat
  else
    let n := c.toNat - 0x10000
    unitEscape (0xD800 + n / 0x400) ++ unitEscape (0xDC00 + n % 0x400)

/-- A character in a string. -/
def writeChar (c : Char) : Text :=
  match c with
  | '\x22' => ['\\', '\x22']
  | '\\' => ['\\', '\\']
  | '\n' => ['\\', 'n']
  | '\r' => ['\\', 'r']
  | '\t' => ['\\', 't']
  | '\x0c' => ['\\', 'f']
  | '\x08' => ['\\', 'b']
  | c => if 0x20 ≤ c.toNat ∧ c.toNat ≤ 0x7E then [c] else codeEscape c

/-- A string in quotes. -/
def writeString (s : Text) : Text := '\x22' :: s.flatMap writeChar ++ ['\x22']

/-- A floating-point number. -/
def writeFloat : Binary64 → Text
  | .nan => "NaN".toList
  | .infinite negative => if negative then "-Infinity".toList else "Infinity".toList
  | .finite negative m q => Binary64.finiteText negative m q

/-- The start of a line at a level. -/
def newline (level : Nat) : Text := '\n' :: List.replicate (2 * level) ' '

mutual

/-- A value whose items stand at the level after `level`. -/
def write (level : Nat) : Json → Text
  | null => "null".toList
  | bool b => if b then "true".toList else "false".toList
  | int i => Text.signedDecimal i
  | float x => writeFloat x
  | string s => writeString s
  | list [] => ['[', ']']
  | list (x :: xs) =>
    '[' :: newline (level + 1) ++ write (level + 1) x ++ writeItems (level + 1) xs ++
      newline level ++ [']']
  | object [] => ['\x7b', '\x7d']
  | object ((k, x) :: fs) =>
    '\x7b' :: newline (level + 1) ++ writeString k ++ [':', ' '] ++ write (level + 1) x ++
      writeFields (level + 1) fs ++ newline level ++ ['\x7d']

/-- The items after the first, each behind a comma. -/
def writeItems (level : Nat) : List Json → Text
  | [] => []
  | x :: xs => ',' :: newline level ++ write level x ++ writeItems level xs

/-- The fields after the first, each behind a comma. -/
def writeFields (level : Nat) : List (Text × Json) → Text
  | [] => []
  | (k, x) :: fs =>
    ',' :: newline level ++ writeString k ++ [':', ' '] ++ write level x ++ writeFields level fs

end

/-- The text of a value. -/
def text (v : Json) : Text := write 0 v

/-! ## Integers that are too long -/

mutual

/-- What is written of a value before its first integer that is too long, if it has one. -/
def cutShort? (most level : Nat) : Json → Option Text
  | int i => if isLong most (int i) then some [] else none
  | list items => cutItems? most (level + 1) ('[' :: newline (level + 1)) items
  | object fields => cutFields? most (level + 1) ('\x7b' :: newline (level + 1)) fields
  | _ => none

/-- What is written of items, the first of them behind `lead`. -/
def cutItems? (most level : Nat) (lead : Text) : List Json → Option Text
  | [] => none
  | x :: xs =>
    if isLong most x then some []
    else match cutShort? most level x with
      | some s => some (lead ++ s)
      | none =>
        (cutItems? most level (',' :: newline level) xs).map fun s => lead ++ write level x ++ s

/-- What is written of fields, the first of them behind `lead`. -/
def cutFields? (most level : Nat) (lead : Text) : List (Text × Json) → Option Text
  | [] => none
  | (k, x) :: fs =>
    let start := lead ++ writeString k ++ [':', ' ']
    match cutShort? most level x with
    | some s => some (start ++ s)
    | none =>
      (cutFields? most level (',' :: newline level) fs).map fun s => start ++ write level x ++ s

end

/-- What is written of a value, and whether that is all of it. -/
def written (most : Nat) (v : Json) : Text × Bool :=
  match cutShort? most 0 v with
  | some s => (s, false)
  | none => (v.text, true)

end PromptFill.Json
