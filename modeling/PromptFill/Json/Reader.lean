/-
  Reading JSON values.

  A text is one value with blanks around it.  Beside the standard forms, `NaN`, `Infinity`
  and `-Infinity` are numbers.  Control characters do not stand in strings, and of a field
  that occurs twice the last entry counts, at the first place.  An integer of too many digits
  is refused with its length, and so is a list or an object inside of too many others; every
  other fault is a malformed text.

  A string is read in three steps: `splitString` finds its end, `units?` resolves its
  escapes to UTF-16 units and code points, and `joinUnits` puts the pairs of units together.
  An escape of half a pair without the other half is no character, and no text here holds it:
  of the texts with such an escape (`hasLoneEscape`), the strings are not told exactly.
-/
import PromptFill.Json.Basic

namespace PromptFill.Json

/-- Why a text is refused. -/
inductive ReadError where
  | malformed
  | longInteger (digits : Nat)
  /-- A list or an object lies too deep. -/
  | tooDeep (isObject : Bool)
deriving DecidableEq, Repr

/-- What a reader answers: what it read and the rest of the text. -/
abbrev Reading (α : Type) := Except ReadError (α × Text)

/-- Whether a character may stand between the parts of a value. -/
def isBlank (c : Char) : Bool := c = ' ' || c = '\t' || c = '\n' || c = '\r'

/-- The text without the blanks at its start. -/
def skipBlanks (s : Text) : Text := s.dropWhile isBlank

/-! ## Strings -/

/-- What stands before the quote that ends a string, and what follows it. -/
def splitString : Text → Option (Text × Text)
  | [] => none
  | '\x22' :: s => some ([], s)
  | '\\' :: c :: s => (splitString s).map fun p => ('\\' :: c :: p.1, p.2)
  | c :: s => (splitString s).map fun p => (c :: p.1, p.2)

/-- The value of a hexadecimal digit. -/
def hexDigit? (c : Char) : Option Nat :=
  if '0' ≤ c ∧ c ≤ '9' then some (c.toNat - 48)
  else if 'a' ≤ c ∧ c ≤ 'f' then some (c.toNat - 87)
  else if 'A' ≤ c ∧ c ≤ 'F' then some (c.toNat - 55)
  else none

/-- The value of four hexadecimal digits. -/
def hexFour? (a b c d : Char) : Option Nat := do
  let a ← hexDigit? a
  let b ← hexDigit? b
  let c ← hexDigit? c
  let d ← hexDigit? d
  return ((a * 16 + b) * 16 + c) * 16 + d

/-- The character that a backslash and a letter stand for. -/
def namedEscape? : Char → Option Char
  | '\x22' => some '\x22'
  | '\\' => some '\\'
  | '/' => some '/'
  | 'b' => some '\x08'
  | 'f' => some '\x0c'
  | 'n' => some '\n'
  | 'r' => some '\r'
  | 't' => some '\t'
  | _ => none

/-- The UTF-16 units and code points that the inside of a string stands for. -/
def units? : Text → Option (List Nat)
  | [] => some []
  | '\\' :: 'u' :: a :: b :: c :: d :: s => do
    let u ← hexFour? a b c d
    return u :: (← units? s)
  | '\\' :: e :: s => do
    let c ← namedEscape? e
    return c.toNat :: (← units? s)
  | c :: s => if c.toNat < 0x20 ∨ c = '\\' then none else (units? s).map (c.toNat :: ·)

/-- Whether a unit is the first of a pair. -/
def isHigh (u : Nat) : Bool := 0xD800 ≤ u && u ≤ 0xDBFF

/-- Whether a unit is the second of a pair. -/
def isLow (u : Nat) : Bool := 0xDC00 ≤ u && u ≤ 0xDFFF

/-- The character of a unit that is in no pair.  A lone half of a pair, which is none, shows as
    U+FFFD; so two keys that differ in such a half are one key here, and two for the program. -/
def loneUnit (u : Nat) : Char := if isHigh u || isLow u then '\uFFFD' else Char.ofNat u

/-- Whether a text escapes half of a pair without the other half; `high` says whether an escape
    of the first half stands right before. -/
def hasLoneEscape (high : Bool) : Text → Bool
  | [] => high
  | '\\' :: 'u' :: a :: b :: c :: d :: s =>
    match hexFour? a b c d with
    | none => high || hasLoneEscape false s
    | some u =>
      if isLow u then !high || hasLoneEscape false s
      else high || hasLoneEscape (isHigh u) s
  | '\\' :: _ :: s => high || hasLoneEscape false s
  | _ :: s => high || hasLoneEscape false s

/-- The text of a list of units and code points. -/
def joinUnits : List Nat → Text
  | [] => []
  | [u] => [loneUnit u]
  | u :: v :: us =>
    if isHigh u && isLow v then
      Char.ofNat (0x10000 + (u - 0xD800) * 0x400 + (v - 0xDC00)) :: joinUnits us
    else loneUnit u :: joinUnits (v :: us)

/-- A string, from behind its first quote. -/
def readString (s : Text) : Reading Text :=
  match splitString s with
  | none => .error .malformed
  | some (inside, rest) =>
    match units? inside with
    | none => .error .malformed
    | some us => .ok (joinUnits us, rest)

/-! ## Numbers and words -/

/-- The digits at the start of a text, and the rest. -/
def takeDigits (s : Text) : Text × Text := s.span Char.isDigit

/-- The digits of a whole number and the rest: a zero at the start stands alone. -/
def takeWhole (s : Text) : Text × Text :=
  match s with
  | '0' :: r => (['0'], r)
  | _ => takeDigits s

/-- The digits after a point, if there are any, and the rest. -/
def takeFraction (s : Text) : Text × Text :=
  match s with
  | '.' :: r => if (takeDigits r).1 = [] then ([], s) else takeDigits r
  | _ => ([], s)

/-- The exponent after the letter `e`, if there is one, and the rest. -/
def takeExponent (s : Text) : Option Int × Text :=
  let signed (negative : Bool) (r : Text) : Option Int × Text :=
    let (digits, rest) := takeDigits r
    if digits = [] then (none, s)
    else
      let n : Int := Nat.ofDigitChars 10 digits 0
      (some (if negative then -n else n), rest)
  match s with
  | e :: r =>
    if e = 'e' ∨ e = 'E' then
      match r with
      | '-' :: r' => signed true r'
      | '+' :: r' => signed false r'
      | _ => signed false r
    else (none, s)
  | [] => (none, s)

/-- A number without its sign, an integer in at most `most` digits. -/
def readUnsigned (most : Nat) (negative : Bool) (s : Text) : Reading Json :=
  let (whole, s₁) := takeWhole s
  let (fraction, s₂) := takeFraction s₁
  let (exponent, rest) := takeExponent s₂
  if whole = [] then .error .malformed
  else if fraction = [] ∧ exponent = none then
    if most < whole.length then .error (.longInteger whole.length)
    else
      let n : Int := Nat.ofDigitChars 10 whole 0
      .ok (int (if negative then -n else n), rest)
  else
    let digits := Nat.ofDigitChars 10 (whole ++ fraction) 0
    .ok (float (Binary64.ofDecimal negative digits (exponent.getD 0 - fraction.length)), rest)

/-- The values that are written as words. -/
def words : List (Text × Json) :=
  [("null".toList, null), ("true".toList, bool true), ("false".toList, bool false),
    ("NaN".toList, float .nan), ("Infinity".toList, float (.infinite false)),
    ("-Infinity".toList, float (.infinite true))]

/-- The word at the start of a text and the rest. -/
def readWord? (s : Text) : Option (Json × Text) :=
  (words.find? fun w => w.1.isPrefixOf s).map fun w => (w.2, s.drop w.1.length)

/-- A word or a number. -/
def readScalar (most : Nat) (s : Text) : Reading Json :=
  match readWord? s with
  | some r => .ok r
  | none =>
    match s with
    | '-' :: r => readUnsigned most true r
    | _ => readUnsigned most false s

/-! ## Values -/

mutual

/-- A value with integers of at most `most` digits and at most `room` lists and objects inside of
    one another, in at most `fuel` nested steps. -/
def readValue (most room : Nat) : (fuel : Nat) → Text → Reading Json
  | 0, _ => .error .malformed
  | fuel + 1, s =>
    match s with
    | '\x22' :: r => (readString r).map fun p => (string p.1, p.2)
    | '[' :: r =>
      match room with
      | 0 => .error (.tooDeep false)
      | room + 1 =>
        match skipBlanks r with
        | ']' :: rest => .ok (list [], rest)
        | r' => (readItems most room fuel r').map fun p => (list p.1, p.2)
    | '\x7b' :: r =>
      match room with
      | 0 => .error (.tooDeep true)
      | room + 1 =>
        match skipBlanks r with
        | '\x7d' :: rest => .ok (object [], rest)
        | r' => (readFields most room fuel r').map fun p => (object (Table.ofList p.1), p.2)
    | _ => readScalar most s

/-- The items of a list up to its closing bracket. -/
def readItems (most room : Nat) : (fuel : Nat) → Text → Reading (List Json)
  | 0, _ => .error .malformed
  | fuel + 1, s =>
    match readValue most room fuel s with
    | .error e => .error e
    | .ok (v, r) =>
      match skipBlanks r with
      | ']' :: rest => .ok ([v], rest)
      | ',' :: rest => (readItems most room fuel (skipBlanks rest)).map fun p => (v :: p.1, p.2)
      | _ => .error .malformed

/-- The fields of an object up to its closing brace. -/
def readFields (most room : Nat) : (fuel : Nat) → Text → Reading (List (Text × Json))
  | 0, _ => .error .malformed
  | fuel + 1, s =>
    match s with
    | '\x22' :: r =>
      match readString r with
      | .error e => .error e
      | .ok (k, r₁) =>
        match skipBlanks r₁ with
        | ':' :: r₂ =>
          match readValue most room fuel (skipBlanks r₂) with
          | .error e => .error e
          | .ok (v, r₃) =>
            match skipBlanks r₃ with
            | '\x7d' :: rest => .ok ([(k, v)], rest)
            | ',' :: rest =>
              (readFields most room fuel (skipBlanks rest)).map fun p => ((k, v) :: p.1, p.2)
            | _ => .error .malformed
        | _ => .error .malformed
    | _ => .error .malformed

end

/-- The value that a text is.  Every step reads a character or hands on to one that does, so
    two steps for each character are enough. -/
def ofText (limits : Limits) (s : Text) : Except ReadError Json :=
  match readValue limits.digits limits.nested (2 * s.length + 2) (skipBlanks s) with
  | .error e => .error e
  | .ok (v, rest) => if skipBlanks rest = [] then .ok v else .error .malformed

/-- The integer that a numeral of at most `most` digits after an optional minus sign is. -/
def intOfNumeral (most : Nat) (s : Text) : Except ReadError Int :=
  let (negative, digits) := match s with
    | '-' :: r => (true, r)
    | _ => (false, s)
  if digits = [] ∨ !digits.all Char.isDigit then .error .malformed
  else if most < digits.length then .error (.longInteger digits.length)
  else
    let n : Int := Nat.ofDigitChars 10 digits 0
    .ok (if negative then -n else n)

/-- The floating-point number of a text. -/
def floatOfText (s : Text) : Except ReadError Binary64 :=
  if s = Binary64.text .nan then .ok .nan
  else if s = Binary64.text (.infinite false) then .ok (.infinite false)
  else if s = Binary64.text (.infinite true) then .ok (.infinite true)
  else match readScalar s.length s with
    | .ok (float x, []) => .ok x
    | _ => .error .malformed

end PromptFill.Json
