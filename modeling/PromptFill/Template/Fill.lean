/-
  What a template asks for and what it becomes.

  * `placeholders` lists the distinct keys a template asks for, in order of their first
    occurrence, which also decides kind, default and choices;
  * `fill` replaces every slot by what it resolves to;
  * `preview` does the same, but shows a slot that resolves to nothing as its key in double
    quotes, so that the gap stays visible.

  Every slot is replaced on its own, and the inserted texts are not looked at again.
-/
import PromptFill.Template.Basic
import PromptFill.Template.Values

namespace PromptFill

/-- The placeholders without those whose key came before. -/
def Placeholder.distinct : List Placeholder → List Placeholder
  | [] => []
  | p :: ps => p :: (distinct ps).filter fun q => q.key ≠ p.key

namespace Template

/-- One placeholder for each distinct key that is not empty, in order of first occurrence. -/
def placeholders (t : Template) : List Placeholder :=
  Placeholder.distinct ((t.expressions.map Placeholder.ofInner).filter fun p => p.key ≠ [])

/-- The text with every slot replaced by its live value or its own default. -/
def fill (t : Template) (v : Values) : Text :=
  t.substitute fun inner => (Placeholder.ofInner inner).resolve v

/-- What a slot shows in a preview: its value, or its key in double quotes if that is blank. -/
def shown (v : Values) (inner : Text) : Text :=
  let p := Placeholder.ofInner inner
  let value := p.resolve v
  if Text.isBlank value then '\x22' :: p.key ++ ['\x22'] else value

/-- The text with every slot replaced by its value, gaps being shown by their quoted keys. -/
def preview (t : Template) (v : Values) : Text := t.substitute (shown v)

/-- The number of slots, repeated and empty keys included. -/
def count (t : Template) : Nat := t.slots.length

/-- Whether there is any slot. -/
def hasSlots (t : Template) : Bool := !t.slots.isEmpty

end Template

end PromptFill
