/-
  Blank characters and trimming.

  A character is blank if it is white space of the Unicode standard or one of the four
  information separators U+001C to U+001F.  `trim` takes the blanks off both ends, and a
  text is blank if nothing else is in it.

  `isBlank_iff_trim` says that the blank texts are those that trim to nothing.
-/
import PromptFill.Text.Basic

namespace PromptFill

/-- The ranges of blank characters, by code point, in increasing order. -/
def blankRanges : List (Nat × Nat) :=
  [(0x09, 0x0D), (0x1C, 0x20), (0x85, 0x85), (0xA0, 0xA0), (0x1680, 0x1680), (0x2000, 0x200A),
    (0x2028, 0x2029), (0x202F, 0x202F), (0x205F, 0x205F), (0x3000, 0x3000)]

/-- Whether a character is blank. -/
def isBlankChar (c : Char) : Bool :=
  blankRanges.any fun r => r.1 ≤ c.toNat && c.toNat ≤ r.2

namespace Text

/-- The text without the blanks at its start. -/
def trimStart (s : Text) : Text := s.dropWhile isBlankChar

/-- The text without the blanks at its end. -/
def trimEnd (s : Text) : Text := (s.reverse.dropWhile isBlankChar).reverse

/-- The text without the blanks at its two ends. -/
def trim (s : Text) : Text := trimEnd (trimStart s)

/-- Whether the text holds blanks only. -/
def isBlank (s : Text) : Bool := s.all isBlankChar

end Text

/-- Every ASCII white space is blank. -/
theorem isBlankChar_of_isWhitespace {c : Char} (h : c.isWhitespace = true) :
    isBlankChar c = true := by
  simp only [Char.isWhitespace, Bool.or_eq_true, decide_eq_true_eq] at h
  rcases h with ((h | h) | h) | h <;> subst h <;> rfl

namespace Text

theorem dropWhile_eq_nil_iff {p : Char → Bool} {s : Text} :
    s.dropWhile p = [] ↔ s.all p = true := by
  induction s with
  | nil => simp
  | cons c s ih => by_cases h : p c <;> simp [h, ih]

theorem trimEnd_eq_nil_iff {s : Text} : trimEnd s = [] ↔ isBlank s = true := by
  rw [trimEnd, List.reverse_eq_nil_iff, dropWhile_eq_nil_iff, List.all_reverse, isBlank]

/-- A text is blank exactly if trimming leaves nothing of it. -/
theorem isBlank_iff_trim {s : Text} : isBlank s = true ↔ trim s = [] := by
  rw [trim, trimEnd_eq_nil_iff, trimStart, isBlank, isBlank]
  induction s with
  | nil => simp
  | cons c s ih => by_cases h : isBlankChar c <;> simp [h, ih]

end Text

end PromptFill
