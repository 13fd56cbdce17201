/-
  Advice on the brackets of a template.

  A text whose numbers of opening and closing brackets differ is warned of once and first;
  then every slot without a label is, in order: one with nothing but blanks between its
  brackets, and one that begins with its equals sign.
-/
import PromptFill.Template.Basic
import PromptFill.Text.Blank

namespace PromptFill

/-- What may be wrong with the brackets of a template. -/
inductive Warning where
  /-- Unequal numbers of brackets. -/
  | unbalanced (opening closing : Nat)
  /-- Nothing between the brackets. -/
  | emptySlot
  /-- No label before the equals sign. -/
  | unlabelled (inner : Text)
deriving DecidableEq, Repr

namespace Warning

/-- The wording of a warning. -/
def message : Warning → Text
  | unbalanced opening closing =>
    "Unbalanced brackets: ".toList ++ Text.decimal opening ++ " × '[' vs. ".toList ++
      Text.decimal closing ++ " × ']'".toList
  | emptySlot => "Empty placeholder found: []".toList
  | unlabelled inner => "Placeholder without label: ".toList ++ Template.bracketed inner

/-- The warning about a text as a whole. -/
def ofText (s : Text) : Option Warning :=
  if s.count '[' = s.count ']' then none else some (unbalanced (s.count '[') (s.count ']'))

/-- The warning about a slot. -/
def ofInner (inner : Text) : Option Warning :=
  match Text.trim inner with
  | [] => some emptySlot
  | '=' :: _ => some (unlabelled inner)
  | _ => none

end Warning

/-- The warnings about a template text, the one about its brackets first. -/
def Template.warnings (s : Text) : List Warning :=
  (Warning.ofText s).toList ++ (Template.ofText s).expressions.filterMap Warning.ofInner

end PromptFill
