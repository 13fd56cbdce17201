/-
  Integers: reading what was written.

  A numeral is read up to its end, which is where neither a digit nor the start of a fraction
  or an exponent stands (`EndsNumber`).  Numerals begin with a digit, and with a zero only if
  they are that of zero (`decimal_eq_cons_of_ne_zero`), so the reader takes them whole.
-/
import Mathlib.Data.List.TakeDrop
import PromptFill.Json.Printer
import PromptFill.Json.Reader

namespace PromptFill.Json

/-! ## Decimal numerals -/

theorem isDigit_of_mem_decimal {n : Nat} {c : Char} (h : c ∈ Text.decimal n) : c.isDigit = true :=
  Nat.isDigit_of_mem_toDigits (by decide) (by decide) h

theorem digitChar_ne_zero {d : Nat} (hd : d < 10) (h : d ≠ 0) : d.digitChar ≠ '0' := by
  revert d
  decide

/-- The numeral of another number than zero does not begin with a zero. -/
theorem decimal_eq_cons_of_ne_zero {n : Nat} (h : n ≠ 0) :
    ∃ c s, Text.decimal n = c :: s ∧ c ≠ '0' := by
  induction n using Nat.strongRecOn with
  | ind n ih =>
    rw [Text.decimal]
    by_cases hn : n < 10
    · exact ⟨n.digitChar, [], Nat.toDigits_of_lt_base hn, digitChar_ne_zero hn h⟩
    · obtain ⟨c, s, hs, hc⟩ := ih (n / 10) (by omega) (by omega)
      refine ⟨c, s ++ [(n % 10).digitChar], ?_, hc⟩
      rw [Nat.toDigits_of_base_le (by decide) (Nat.not_lt.1 hn), ← Text.decimal, hs,
        List.cons_append]

/-! ## The end of a number -/

/-- Whether no number goes on here. -/
def EndsNumber (s : Text) : Prop :=
  ∀ c ∈ s.head?, c.isDigit = false ∧ c ≠ '.' ∧ c ≠ 'e' ∧ c ≠ 'E'

/-- Whether no digit stands here. -/
def EndsDigits (s : Text) : Prop := ∀ c ∈ s.head?, c.isDigit = false

variable {rest : Text}

theorem EndsNumber.endsDigits (h : EndsNumber rest) : EndsDigits rest := fun c hc => (h c hc).1

theorem endsDigits_cons {c : Char} (hc : c.isDigit = false) (s : Text) : EndsDigits (c :: s) := by
  rintro _ ⟨⟩
  exact hc

theorem takeDigits_append {s : Text} (hs : ∀ c ∈ s, c.isDigit = true) (hrest : EndsDigits rest) :
    takeDigits (s ++ rest) = (s, rest) := by
  have hnone : rest.takeWhile Char.isDigit = [] ∧ rest.dropWhile Char.isDigit = rest := by
    cases rest with
    | nil => simp
    | cons c rest => simp [hrest c rfl]
  rw [takeDigits, List.span_eq_takeWhile_dropWhile, List.takeWhile_append_of_pos hs,
    List.dropWhile_append_of_pos hs, hnone.1, hnone.2, List.append_nil]

/-- Digits of which the first is no zero are taken whole. -/
theorem takeWhole_append {c : Char} {s : Text} (hs : ∀ d ∈ c :: s, d.isDigit = true) (hc : c ≠ '0')
    (hrest : EndsDigits rest) : takeWhole (c :: s ++ rest) = (c :: s, rest) := by
  have hzero (r : Text) : c :: s ++ rest ≠ '0' :: r := fun h => hc (List.cons.inj h).1
  rw [takeWhole.eq_2 _ hzero]
  exact takeDigits_append hs hrest

theorem takeWhole_decimal (n : Nat) (hrest : EndsDigits rest) :
    takeWhole (Text.decimal n ++ rest) = (Text.decimal n, rest) := by
  by_cases hn : n = 0
  · rw [hn]
    rfl
  · have hdigits : ∀ c ∈ Text.decimal n, c.isDigit = true := fun _ => isDigit_of_mem_decimal
    obtain ⟨c, s, hs, hc⟩ := decimal_eq_cons_of_ne_zero hn
    rw [hs] at hdigits ⊢
    exact takeWhole_append hdigits hc hrest

theorem takeFraction_eq (hrest : EndsNumber rest) : takeFraction rest = ([], rest) := by
  refine takeFraction.eq_2 rest fun r hr => ?_
  subst hr
  exact (hrest '.' rfl).2.1 rfl

theorem takeExponent_eq (hrest : EndsNumber rest) : takeExponent rest = (none, rest) := by
  cases rest with
  | nil => rfl
  | cons c rest =>
    obtain ⟨-, -, he, hE⟩ := hrest c rfl
    simp [takeExponent, he, hE]

/-! ## Integers -/

theorem readUnsigned_decimal {most n : Nat} (negative : Bool) (hn : (Text.decimal n).length ≤ most)
    (hrest : EndsNumber rest) :
    readUnsigned most negative (Text.decimal n ++ rest) =
      .ok (int (if negative then -(n : Int) else n), rest) := by
  have hne : Text.decimal n ≠ [] := Nat.toDigits_ne_nil
  have hvalue : Nat.ofDigitChars 10 (Text.decimal n) 0 = n := Nat.ofDigitChars_ten_toDigits
  simp [readUnsigned, takeWhole_decimal n hrest.endsDigits, takeFraction_eq hrest,
    takeExponent_eq hrest, hne, hvalue, Nat.not_lt.2 hn]

theorem readWord?_of_isDigit {c : Char} (hc : c.isDigit = true) (s : Text) :
    readWord? (c :: s) = none ∧ readWord? ('-' :: c :: s) = none := by
  have hne {x : Char} (hx : x.isDigit = false) : x ≠ c := by
    rintro rfl
    exact absurd hc (by simp [hx])
  constructor <;> simp [readWord?, words, List.isPrefixOf, hne]

theorem readScalar_of_isDigit (most : Nat) {c : Char} (hc : c.isDigit = true) (s : Text) :
    readScalar most (c :: s) = readUnsigned most false (c :: s) ∧
      readScalar most ('-' :: c :: s) = readUnsigned most true (c :: s) := by
  obtain ⟨hword, hsigned⟩ := readWord?_of_isDigit hc s
  constructor
  · have hsign (r : Text) (h : c :: s = '-' :: r) : False := by
      rw [(List.cons.inj h).1] at hc
      cases hc
    rw [readScalar.eq_2 most _ hsign, hword]
  · rw [readScalar.eq_1, hsigned]

theorem decimal_append_eq_cons (n : Nat) (s : Text) :
    ∃ c r, Text.decimal n ++ s = c :: r ∧ c.isDigit = true := by
  obtain ⟨c, r, h⟩ := List.exists_cons_of_ne_nil (Nat.toDigits_ne_nil (n := n) (b := 10))
  have hc : c ∈ Text.decimal n := by
    rw [Text.decimal, h]
    exact List.mem_cons_self
  exact ⟨c, r ++ s, by rw [Text.decimal, h, List.cons_append], isDigit_of_mem_decimal hc⟩

/-- Whether a character can stand at the start of an integer. -/
def StartsInteger (c : Char) : Prop := c = '-' ∨ c.isDigit = true

theorem StartsInteger.ne {c x : Char} (hc : StartsInteger c) (hsign : x ≠ '-')
    (hdigit : x.isDigit = false) : c ≠ x := by
  rintro rfl
  rcases hc with hc | hc
  · exact hsign hc
  · rw [hdigit] at hc
    cases hc

theorem signedDecimal_eq_cons (i : Int) :
    ∃ c s, Text.signedDecimal i = c :: s ∧ StartsInteger c := by
  cases i with
  | ofNat n =>
    obtain ⟨c, s, hs, hc⟩ := decimal_append_eq_cons n []
    rw [List.append_nil] at hs
    exact ⟨c, s, hs, .inr hc⟩
  | negSucc n => exact ⟨'-', Text.decimal (n + 1), rfl, .inl rfl⟩

/-- An integer that was written is read up to its end. -/
theorem readScalar_signedDecimal {most : Nat} {i : Int} (hi : isLong most (int i) = false)
    (hrest : EndsNumber rest) :
    readScalar most (Text.signedDecimal i ++ rest) = .ok (int i, rest) := by
  have hlen : (Text.decimal i.natAbs).length ≤ most := by simpa [isLong] using hi
  cases i with
  | ofNat n =>
    obtain ⟨c, s, hs, hc⟩ := decimal_append_eq_cons n rest
    rw [Text.signedDecimal, hs, (readScalar_of_isDigit most hc s).1, ← hs]
    exact readUnsigned_decimal false hlen hrest
  | negSucc n =>
    obtain ⟨c, s, hs, hc⟩ := decimal_append_eq_cons (n + 1) rest
    rw [Text.signedDecimal, List.cons_append, hs, (readScalar_of_isDigit most hc s).2, ← hs]
    exact readUnsigned_decimal true hlen hrest

end PromptFill.Json
