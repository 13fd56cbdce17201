/-
  Paths.

  A path is relative or begins at the root; two slashes in front, and only two, are kept
  apart from one.  Empty components and `.` are left out, `..` stays.
-/
import PromptFill.Text.Basic
import PromptFill.Text.Utf8

namespace PromptFill

/-- Where a path begins. -/
inductive Anchor where
  | relative
  | root
  /-- Two slashes in front. -/
  | doubleRoot
deriving DecidableEq, Repr

/-- A path: where it begins, and its components. -/
structure Path where
  anchor : Anchor
  parts : List Text
deriving DecidableEq, Repr

namespace Path

/-- Where the path of a text begins. -/
def anchorOf : Text → Anchor
  | '/' :: '/' :: '/' :: _ => .root
  | '/' :: '/' :: _ => .doubleRoot
  | '/' :: _ => .root
  | _ => .relative

/-- Whether a piece between slashes is a component. -/
def isComponent (s : Text) : Bool := s ≠ [] && s ≠ ['.']

/-- The path that a text names. -/
def ofText (s : Text) : Path := ⟨anchorOf s, (s.splitOn '/').filter isComponent⟩

/-- The text that an anchor begins with. -/
def anchorText : Anchor → Text
  | .relative => []
  | .root => ['/']
  | .doubleRoot => ['/', '/']

/-- The text of a path: a dot if it has no components and no root. -/
def text (p : Path) : Text :=
  let s := anchorText p.anchor ++ List.intercalate ['/'] p.parts
  if s = [] then ['.'] else s

/-- Whether a path does not begin at the root. -/
def isRelative (p : Path) : Bool := p.anchor = .relative

/-- The path `q` seen from `p`. -/
def join (p q : Path) : Path := if q.isRelative then { p with parts := p.parts ++ q.parts } else q

/-- The path of a text seen from `p`. -/
def child (p : Path) (s : Text) : Path := p.join (ofText s)

/-- The path without its last component. -/
def parent (p : Path) : Path := { p with parts := p.parts.dropLast }

/-- The last component; nothing if there is none. -/
def name (p : Path) : Text := p.parts.getLast?.getD []

/-- The last component up to its last dot, unless the dot is its first or last character. -/
def stem (p : Path) : Text :=
  match Text.cutAt '.' p.name.reverse with
  | some (ending, base) => if ending = [] ∨ base = [] then p.name else base.reverse
  | none => p.name

/-- The components with each `..` taking back the one before it. -/
def collapse (parts : List Text) : List Text :=
  parts.foldl (fun done c => if c = "..".toList then done.dropLast else done ++ [c]) []

/-- The path from the root that `p` is in the directory `here`, with `..` resolved in the
    text alone. -/
def absolute (here : List Text) (p : Path) : Path :=
  if p.isRelative then ⟨.root, collapse (here ++ p.parts)⟩ else { p with parts := collapse p.parts }

end Path

end PromptFill
