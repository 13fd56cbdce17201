/-
  Texts as lists of characters, and cutting a text at a separator.

  * `cutAt c s` splits `s` around its first `c`;
  * `inOrder` compares texts by their code points;
  * `decimal` and `hex` are the numerals of natural numbers, and `zeroFill` widens them.

  `cutAt_eq_some_iff` and `cutAt_eq_none_iff` say which pair `cutAt` answers.
-/
namespace PromptFill

/-- A text is the list of its characters. -/
abbrev Text := List Char

namespace Text

/-- What stands before the first `c` and what follows it, if `c` occurs. -/
def cutAt (c : Char) : Text → Option (Text × Text)
  | [] => none
  | x :: s => if x = c then some ([], s) else (cutAt c s).map fun p => (x :: p.1, p.2)

theorem cutAt_eq_some_iff {c : Char} {s a b : Text} :
    cutAt c s = some (a, b) ↔ c ∉ a ∧ s = a ++ c :: b := by
  induction s generalizing a with
  | nil => simp [cutAt]
  | cons x s ih =>
    by_cases h : x = c
    · subst h
      cases a with
      | nil => simp [cutAt, eq_comm]
      | cons y a => simp [cutAt]; intro h₁ _ h₂; exact absurd h₂ h₁
    · cases a with
      | nil => simp [cutAt, h]
      | cons y a =>
        simp only [cutAt, if_neg h, Option.map_eq_some_iff, Prod.mk.injEq, List.cons.injEq,
          Prod.exists, List.mem_cons, not_or, List.cons_append]
        constructor
        · rintro ⟨a', b', hc, ⟨rfl, rfl⟩, rfl⟩
          exact ⟨⟨Ne.symm h, (ih.1 hc).1⟩, rfl, (ih.1 hc).2⟩
        · rintro ⟨⟨_, ha⟩, rfl, hs⟩
          exact ⟨a, b, ih.2 ⟨ha, hs⟩, ⟨rfl, rfl⟩, rfl⟩

theorem cutAt_eq_none_iff {c : Char} {s : Text} : cutAt c s = none ↔ c ∉ s := by
  induction s with
  | nil => simp [cutAt]
  | cons x s ih =>
    by_cases h : x = c
    · simp [cutAt, h]
    · simp [cutAt, h, ih, Ne.symm h]

/-- Whether the text does not come after the other in the order of code points. -/
def inOrder : Text → Text → Bool
  | [], _ => true
  | _ :: _, [] => false
  | a :: s, b :: t => a.toNat < b.toNat || a = b && inOrder s t

/-- The decimal numeral of a natural number. -/
def decimal (n : Nat) : Text := Nat.toDigits 10 n

/-- The decimal numeral of an integer, with a minus sign below zero. -/
def signedDecimal : Int → Text
  | .ofNat n => decimal n
  | .negSucc n => '-' :: decimal (n + 1)

/-- The text with zeros in front up to the given width. -/
def zeroFill (width : Nat) (s : Text) : Text := List.replicate (width - s.length) '0' ++ s

/-- The hexadecimal numeral of a natural number, in small letters, of at least that width. -/
def hex (width n : Nat) : Text := zeroFill width (Nat.toDigits 16 n)

end Text

end PromptFill
