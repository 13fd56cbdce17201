/-
  JSON values.

  Numbers without a fraction and an exponent are integers of any size; the others are
  floating-point numbers.  An object keeps the order of its fields.

  How long the numerals may be that are read and written, and how deep lists and objects may
  lie in one another, is up to the runtime: these are its `Limits`.
-/
import PromptFill.Number.Shortest
import PromptFill.Table

namespace PromptFill

/-- A JSON value. -/
inductive Json where
  | null
  | bool (b : Bool)
  | int (i : Int)
  | float (x : Binary64)
  | string (s : Text)
  | list (items : List Json)
  | object (fields : List (Text × Json))

namespace Json

/-- What the runtime puts up with when it reads and writes values.

    How deep it reads depends on how deep the calls are from which it reads.  What is given here
    is for release 3.11 and for settings that are loaded for themselves; where they are loaded to
    tell or to store a scheme, there is room for one list or object less.  Later releases limit
    how deep values are written instead. -/
structure Limits where
  /-- The greatest number of digits of an integer. -/
  digits : Nat := 4300
  /-- The greatest number of lists and objects inside of one another that are read. -/
  nested : Nat := 989
deriving DecidableEq, Repr

/-- Whether a value counts as true: all do but null, false, zero and what is empty. -/
def isTrue : Json → Bool
  | null => false
  | bool b => b
  | int i => i ≠ 0
  | float x => !x.isZero
  | string s => !s.isEmpty
  | list items => !items.isEmpty
  | object fields => !fields.isEmpty

/-- Whether a value is an integer with more digits than can be written. -/
def isLong (most : Nat) : Json → Bool
  | int i => most < (Text.decimal i.natAbs).length
  | _ => false

end Json

end PromptFill
