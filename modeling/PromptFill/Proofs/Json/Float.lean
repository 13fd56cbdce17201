/-
  Floating-point numbers: reading what was written.

  A number is written as digits with a point, or with an exponent, or with both.  The reader
  takes these parts one after the other (`readUnsigned_append`), whatever shape the text has
  (`readUnsigned_positional`, `readUnsigned_scientific`), and finds a decimal of the value that
  was written.  As this is the shortest decimal of a number, it rounds to the number
  (`readScalar_writeFloat`).
-/
import Mathlib.Data.List.TakeWhile
import PromptFill.Proofs.Json.Number
import PromptFill.Proofs.Number.Shortest

namespace PromptFill.Json

open Binary64

variable {rest : Text}

/-! ## The parts of a number -/

/-- What is written of a fraction: its digits behind a point, if there are any. -/
def fractionText (digits : Text) : Text := if digits = [] then [] else '.' :: digits

/-- What is written of an exponent: its sign and its digits behind a letter. -/
def exponentText (exponent : Int) : Text :=
  'e' :: (if exponent < 0 then '-' else '+') :: Text.zeroFill 2 (Text.decimal exponent.natAbs)

theorem takeFraction_append {digits : Text} (hdigits : ∀ c ∈ digits, c.isDigit = true)
    (hrest : EndsDigits rest) (hpoint : rest.head? ≠ some '.') :
    takeFraction (fractionText digits ++ rest) = (digits, rest) := by
  rw [fractionText]
  split
  · subst digits
    refine takeFraction.eq_2 rest fun r hr => ?_
    subst hr
    exact hpoint rfl
  · rename_i hne
    rw [List.cons_append, takeFraction, takeDigits_append hdigits hrest, if_neg hne]

theorem ofDigitChars_zeros (k : ℕ) (s : Text) :
    Nat.ofDigitChars 10 (List.replicate k '0' ++ s) 0 = Nat.ofDigitChars 10 s 0 := by
  rw [Nat.ofDigitChars_append, Nat.ofDigitChars_replicate_zero, Nat.mul_zero]

theorem isDigit_of_mem_zeroFill {width n : ℕ} {c : Char}
    (h : c ∈ Text.zeroFill width (Text.decimal n)) : c.isDigit = true := by
  rcases List.mem_append.1 h with h | h
  · rw [List.eq_of_mem_replicate h]
    rfl
  · exact isDigit_of_mem_decimal h

theorem takeExponent_append (exponent : Int) (hrest : EndsDigits rest) :
    takeExponent (exponentText exponent ++ rest) = (some exponent, rest) := by
  have hdigits : ∀ c ∈ Text.zeroFill 2 (Text.decimal exponent.natAbs), c.isDigit = true :=
    fun _ => isDigit_of_mem_zeroFill
  have hne : Text.zeroFill 2 (Text.decimal exponent.natAbs) ≠ [] := by
    simp [Text.zeroFill, Text.decimal, Nat.toDigits_ne_nil]
  have hvalue : Nat.ofDigitChars 10 (Text.zeroFill 2 (Text.decimal exponent.natAbs)) 0 =
      exponent.natAbs := by
    rw [Text.zeroFill, ofDigitChars_zeros, Text.decimal, Nat.ofDigitChars_ten_toDigits]
  rw [exponentText]
  split <;> rename_i hsign
  · simp only [List.cons_append, takeExponent, true_or, if_true, takeDigits_append hdigits hrest,
      if_neg hne, hvalue]
    congr 2
    omega
  · simp only [List.cons_append, takeExponent, true_or, if_true, takeDigits_append hdigits hrest,
      if_neg hne, hvalue, Bool.false_eq_true, if_false]
    congr 2
    omega

/-- Whether a numeral is taken whole: it is zero or begins with another digit. -/
def IsWhole (s : Text) : Prop :=
  s = ['0'] ∨ ∃ c r, s = c :: r ∧ c ≠ '0' ∧ ∀ d ∈ s, d.isDigit = true

theorem IsWhole.takeWhole_append {s : Text} (hs : IsWhole s) (hrest : EndsDigits rest) :
    takeWhole (s ++ rest) = (s, rest) := by
  obtain rfl | ⟨c, r, rfl, hc, hdigits⟩ := hs
  · rfl
  · exact Json.takeWhole_append hdigits hc hrest

theorem IsWhole.ne_nil {s : Text} (hs : IsWhole s) : s ≠ [] := by
  obtain rfl | ⟨c, r, rfl, -⟩ := hs <;> exact List.cons_ne_nil _ _

variable {whole fraction : Text}

/-- A number with a fraction is read up to its end. -/
theorem readUnsigned_fraction (most : ℕ) (negative : Bool) (hwhole : IsWhole whole)
    (hfraction : ∀ c ∈ fraction, c.isDigit = true) (hne : fraction ≠ [])
    (hrest : EndsNumber rest) :
    readUnsigned most negative (whole ++ (fractionText fraction ++ rest)) =
      .ok (float (ofDecimal negative (Nat.ofDigitChars 10 (whole ++ fraction) 0)
        (-fraction.length)), rest) := by
  have hpoint : rest.head? ≠ some '.' := fun h => (hrest '.' h).2.1 rfl
  have hdigits : EndsDigits (fractionText fraction ++ rest) := by
    rw [fractionText, if_neg hne]
    exact endsDigits_cons rfl _
  simp [readUnsigned, hwhole.takeWhole_append hdigits,
    takeFraction_append hfraction hrest.endsDigits hpoint, takeExponent_eq hrest, hwhole.ne_nil,
    hne]

/-- A number with an exponent is read up to its end. -/
theorem readUnsigned_exponent (most : ℕ) (negative : Bool) (hwhole : IsWhole whole)
    (hfraction : ∀ c ∈ fraction, c.isDigit = true) (exponent : Int) (hrest : EndsNumber rest) :
    readUnsigned most negative
        (whole ++ (fractionText fraction ++ (exponentText exponent ++ rest))) =
      .ok (float (ofDecimal negative (Nat.ofDigitChars 10 (whole ++ fraction) 0)
        (exponent - fraction.length)), rest) := by
  have hletter : EndsDigits (exponentText exponent ++ rest) := endsDigits_cons rfl _
  have hpoint : (exponentText exponent ++ rest).head? ≠ some '.' := by
    rw [exponentText, List.cons_append, List.head?_cons]
    decide
  have hdigits : EndsDigits (fractionText fraction ++ (exponentText exponent ++ rest)) := by
    rw [fractionText]
    split
    · exact hletter
    · exact endsDigits_cons rfl _
  simp [readUnsigned, hwhole.takeWhole_append hdigits,
    takeFraction_append hfraction hletter hpoint, takeExponent_append exponent hrest.endsDigits,
    hwhole.ne_nil]

/-! ## The two shapes -/

/-- Digits of which the first is not a zero. -/
structure Significant (digits : Text) : Prop where
  isDigit : ∀ c ∈ digits, c.isDigit = true
  head : ∃ c s, digits = c :: s ∧ c ≠ '0'

theorem Significant.isWhole_take {digits : Text} (h : Significant digits) {k : ℕ} (hk : 0 < k) :
    IsWhole (digits.take k) := by
  obtain ⟨c, s, rfl, hc⟩ := h.head
  obtain ⟨k, rfl⟩ : ∃ n, k = n + 1 := ⟨k - 1, by omega⟩
  refine .inr ⟨c, s.take k, rfl, hc, fun d hd => h.isDigit d (List.mem_of_mem_take hd)⟩

/-- The text of a decimal is read as a decimal of the same value. -/
def ReadsAs (s : Text) (x : ℚ) : Prop :=
  ∃ (n : ℕ) (e : ℤ), (n : ℚ) * 10 ^ e = x ∧ ∀ (most : ℕ) (negative : Bool) (rest : Text),
    EndsNumber rest →
      readUnsigned most negative (s ++ rest) = .ok (float (ofDecimal negative n e), rest)

theorem ofDigitChars_append_zeros (s : Text) (k : ℕ) :
    Nat.ofDigitChars 10 (s ++ List.replicate k '0') 0 = Nat.ofDigitChars 10 s 0 * 10 ^ k := by
  rw [Nat.ofDigitChars_append, Nat.ofDigitChars_replicate_zero, Nat.mul_comm]

theorem isDigit_of_mem_append_zeros {s : Text} (hs : ∀ c ∈ s, c.isDigit = true) (k : ℕ) :
    ∀ c ∈ s ++ List.replicate k '0', c.isDigit = true := by
  intro c hc
  rcases List.mem_append.1 hc with hc | hc
  · exact hs c hc
  · rw [List.eq_of_mem_replicate hc]
    rfl

theorem Significant.ne_nil {digits : Text} (h : Significant digits) : digits ≠ [] := by
  obtain ⟨c, s, rfl, -⟩ := h.head
  exact List.cons_ne_nil c s

variable {digits : Text} {point : ℤ}

/-- The point stands before the digits. -/
theorem readsAs_before (h : Significant digits) (hpoint : point ≤ 0) :
    ReadsAs ('0' :: '.' :: List.replicate (-point).toNat '0' ++ digits)
      (Nat.ofDigitChars 10 digits 0 * 10 ^ (point - digits.length)) := by
  have hfraction : ∀ c ∈ List.replicate (-point).toNat '0' ++ digits, c.isDigit = true := by
    intro c hc
    rcases List.mem_append.1 hc with hc | hc
    · rw [List.eq_of_mem_replicate hc]
      rfl
    · exact h.isDigit c hc
  have hne : List.replicate (-point).toNat '0' ++ digits ≠ [] := by simp [h.ne_nil]
  refine ⟨Nat.ofDigitChars 10 digits 0, point - digits.length, rfl, ?_⟩
  intro most negative rest hrest
  have hread := readUnsigned_fraction most negative (.inl rfl) hfraction hne hrest
  have hvalue : Nat.ofDigitChars 10 (['0'] ++ (List.replicate (-point).toNat '0' ++ digits)) 0 =
      Nat.ofDigitChars 10 digits 0 := ofDigitChars_zeros ((-point).toNat + 1) digits
  have hplaces : -((List.replicate (-point).toNat '0' ++ digits).length : ℤ) =
      point - digits.length := by
    rw [List.length_append, List.length_replicate]
    omega
  rw [hvalue, hplaces, fractionText, if_neg hne] at hread
  exact hread

/-- The point stands behind the digits. -/
theorem readsAs_behind (h : Significant digits) (hpoint : digits.length ≤ point) :
    ReadsAs (digits ++ List.replicate (point.toNat - digits.length) '0' ++ ['.', '0'])
      (Nat.ofDigitChars 10 digits 0 * 10 ^ (point - digits.length)) := by
  have hwhole : IsWhole (digits ++ List.replicate (point.toNat - digits.length) '0') := by
    obtain ⟨c, s, rfl, hc⟩ := h.head
    exact .inr ⟨c, _, rfl, hc, isDigit_of_mem_append_zeros h.isDigit _⟩
  refine ⟨Nat.ofDigitChars 10
    (digits ++ List.replicate (point.toNat - digits.length) '0' ++ ['0']) 0, -1, ?_, ?_⟩
  · rw [List.append_assoc, ← List.replicate_succ', ofDigitChars_append_zeros]
    push_cast
    rw [mul_assoc, ← zpow_natCast, ← zpow_add₀ (by norm_num)]
    congr 2
    push_cast
    omega
  · intro most negative rest hrest
    have hzero : ∀ c ∈ ['0'], c.isDigit = true := by simp
    rw [List.append_assoc]
    exact readUnsigned_fraction most negative hwhole hzero (by decide) hrest

/-- The point stands among the digits. -/
theorem readsAs_among (h : Significant digits) (hpositive : 0 < point)
    (hpoint : point < digits.length) :
    ReadsAs (digits.take point.toNat ++ '.' :: digits.drop point.toNat)
      (Nat.ofDigitChars 10 digits 0 * 10 ^ (point - digits.length)) := by
  have hwhole : IsWhole (digits.take point.toNat) := h.isWhole_take (by omega)
  have hfraction : ∀ c ∈ digits.drop point.toNat, c.isDigit = true :=
    fun c hc => h.isDigit c (List.mem_of_mem_drop hc)
  have hne : digits.drop point.toNat ≠ [] := by
    rw [Ne, List.drop_eq_nil_iff]
    omega
  refine ⟨Nat.ofDigitChars 10 digits 0, point - digits.length, rfl, ?_⟩
  intro most negative rest hrest
  have hread := readUnsigned_fraction most negative hwhole hfraction hne hrest
  have hplaces : -((digits.drop point.toNat).length : ℤ) = point - digits.length := by
    rw [List.length_drop]
    omega
  rw [List.take_append_drop, hplaces, fractionText, if_neg hne] at hread
  rw [List.append_assoc]
  exact hread

theorem readsAs_positional (h : Significant digits) (point : ℤ) :
    ReadsAs (positional digits point)
      (Nat.ofDigitChars 10 digits 0 * 10 ^ (point - digits.length)) := by
  rw [positional]
  split
  · exact readsAs_before h ‹_›
  · split
    · exact readsAs_behind h ‹_›
    · exact readsAs_among h (by omega) (by omega)

theorem readsAs_scientific (h : Significant digits) (point : ℤ) :
    ReadsAs (scientific digits (point - 1))
      (Nat.ofDigitChars 10 digits 0 * 10 ^ (point - digits.length)) := by
  obtain ⟨c, s, rfl, hc⟩ := h.head
  have hwhole : IsWhole [c] := h.isWhole_take (k := 1) (by decide)
  have hs : ∀ d ∈ s, d.isDigit = true := fun d hd => h.isDigit d (List.mem_cons_of_mem _ hd)
  refine ⟨Nat.ofDigitChars 10 (c :: s) 0, point - 1 - s.length, ?_, ?_⟩
  · congr 2
    rw [List.length_cons]
    push_cast
    ring
  · intro most negative rest hrest
    have htext : scientific (c :: s) (point - 1) =
        [c] ++ (fractionText s ++ exponentText (point - 1)) := by
      cases s <;> rfl
    rw [htext, List.append_assoc, List.append_assoc]
    exact readUnsigned_exponent most negative hwhole hs (point - 1) hrest

/-! ## Whole numbers -/

/-- The numeral of a positive number, without the zeros at its end. -/
theorem exists_significant {n : ℕ} (hn : 0 < n) :
    ∃ k, Text.decimal n =
        ((Text.decimal n).reverse.dropWhile (· = '0')).reverse ++ List.replicate k '0' ∧
      Significant ((Text.decimal n).reverse.dropWhile (· = '0')).reverse := by
  obtain ⟨c, s, hs, hc⟩ := decimal_eq_cons_of_ne_zero hn.ne'
  have hzeros : ((Text.decimal n).reverse.takeWhile (· = '0')).reverse =
      List.replicate ((Text.decimal n).reverse.takeWhile (· = '0')).length '0' := by
    rw [List.eq_replicate_iff]
    refine ⟨List.length_reverse, fun d hd => ?_⟩
    simpa using List.mem_takeWhile_imp (List.mem_reverse.1 hd)
  have hall : Text.decimal n = ((Text.decimal n).reverse.dropWhile (· = '0')).reverse ++
      List.replicate ((Text.decimal n).reverse.takeWhile (· = '0')).length '0' := by
    rw [← hzeros, ← List.reverse_append, List.takeWhile_append_dropWhile, List.reverse_reverse]
  refine ⟨_, hall, fun d hd => ?_, ?_⟩
  · refine isDigit_of_mem_decimal (n := n) ?_
    rw [hall]
    exact List.mem_append_left _ hd
  · cases hdigits : ((Text.decimal n).reverse.dropWhile (· = '0')).reverse with
    | nil =>
      rw [hdigits, List.nil_append, hs] at hall
      exact absurd (List.eq_of_mem_replicate (hall ▸ List.mem_cons_self)) hc
    | cons d r =>
      rw [hdigits, hs] at hall
      exact ⟨d, r, rfl, (List.cons.inj hall).1 ▸ hc⟩

theorem readsAs_magnitudeText {m : ℕ} {q : ℤ} (hm : 0 < m) (hmost : m < 2 * leastNormal) :
    ReadsAs (magnitudeText m q) ((shortest m q).1 * 10 ^ (shortest m q).2) := by
  have hpos := shortest_pos (q := q) hm hmost
  rw [magnitudeText]
  generalize shortest m q = decimal at hpos ⊢
  obtain ⟨c, s⟩ := decimal
  obtain ⟨k, hall, hdigits⟩ := exists_significant hpos
  simp only [] at hall hdigits ⊢
  generalize ((Text.decimal c).reverse.dropWhile (· = '0')).reverse = digits at hall hdigits ⊢
  have hvalue : (c : ℚ) * 10 ^ s = Nat.ofDigitChars 10 digits 0 *
      10 ^ ((Text.decimal c).length + s - digits.length) := by
    have hc : c = Nat.ofDigitChars 10 digits 0 * 10 ^ k := by
      rw [← ofDigitChars_append_zeros, ← hall, Text.decimal, Nat.ofDigitChars_ten_toDigits]
    have hlen : ((Text.decimal c).length : ℤ) + s - digits.length = k + s := by
      rw [hall, List.length_append, List.length_replicate]
      push_cast
      ring
    rw [hlen, zpow_add₀ (by norm_num), zpow_natCast, ← mul_assoc]
    congr 1
    exact_mod_cast hc
  rw [hvalue]
  split
  · exact readsAs_positional hdigits _
  · exact readsAs_scientific hdigits _

theorem readUnsigned_magnitudeText {m : ℕ} {q : ℤ} {negative : Bool} (hm : 0 < m)
    (hc : IsCanonical (finite negative m q)) (most : ℕ) (hrest : EndsNumber rest) :
    readUnsigned most negative (magnitudeText m q ++ rest) =
      .ok (float (finite negative m q), rest) := by
  obtain ⟨n, e, hvalue, hread⟩ := readsAs_magnitudeText (q := q) hm hc.1
  have hround := roundsTo_shortest (q := q) hm hc.1
  rw [← hvalue] at hround
  have hn : 0 < n := by
    refine Nat.pos_of_ne_zero fun hzero => ?_
    rw [hzero, Nat.cast_zero, zero_mul] at hround
    exact absurd (hround.two_zpow_le hm) (not_le.2 (by positivity))
  rw [hread most negative rest hrest, ofDecimal_eq hn hm hc hround]

theorem readUnsigned_zero (most : ℕ) (negative : Bool) (hrest : EndsNumber rest) :
    readUnsigned most negative ("0.0".toList ++ rest) = .ok (float (zero negative), rest) := by
  have hdigit : ∀ c ∈ ['0'], c.isDigit = true := by simp
  exact readUnsigned_fraction most negative (.inl rfl) hdigit (List.cons_ne_nil _ _) hrest

/-! ## The characters of a number -/

/-- What is read as a number begins with a digit. -/
theorem exists_eq_cons_of_readUnsigned {most : ℕ} {negative : Bool} {s : Text} {r : Json × Text}
    (h : readUnsigned most negative s = .ok r) : ∃ c t, s = c :: t ∧ c.isDigit = true := by
  cases s with
  | nil => cases h
  | cons c t =>
    refine ⟨c, t, rfl, ?_⟩
    by_contra hc
    have hwhole : (takeWhole (c :: t)).1 = [] := by
      rw [takeWhole.eq_2 _ fun r hr => hc (by rw [(List.cons.inj hr).1]; rfl), takeDigits,
        List.span_eq_takeWhile_dropWhile, List.takeWhile_cons_of_neg hc]
    simp [readUnsigned, hwhole] at h

/-- Whether a character can stand in the text of a finite number. -/
def IsNumberChar (c : Char) : Prop := c.isDigit = true ∨ c = '.' ∨ c = 'e' ∨ c = '+' ∨ c = '-'

theorem isNumberChar_positional {digits : Text} (hdigits : ∀ c ∈ digits, c.isDigit = true)
    (point : ℤ) : ∀ c ∈ positional digits point, IsNumberChar c := by
  have hzeros {k : ℕ} {c : Char} (hc : c ∈ List.replicate k '0') : IsNumberChar c := by
    rw [List.eq_of_mem_replicate hc]
    exact .inl rfl
  have hpart {s : Text} (hs : ∀ c ∈ s, c ∈ digits) : ∀ c ∈ s, IsNumberChar c :=
    fun c hc => .inl (hdigits c (hs c hc))
  rw [positional]
  split
  · simp only [List.cons_append, List.forall_mem_cons, List.forall_mem_append]
    exact ⟨.inl rfl, .inr (.inl rfl), fun _ => hzeros, hpart fun _ => id⟩
  · split
    · simp only [List.forall_mem_cons, List.forall_mem_append]
      exact ⟨⟨hpart fun _ => id, fun _ => hzeros⟩, .inr (.inl rfl), .inl rfl,
        List.forall_mem_nil _⟩
    · simp only [List.forall_mem_cons, List.forall_mem_append]
      exact ⟨hpart fun _ => List.mem_of_mem_take, .inr (.inl rfl),
        hpart fun _ => List.mem_of_mem_drop⟩

theorem isNumberChar_scientific {digits : Text} (hdigits : ∀ c ∈ digits, c.isDigit = true)
    (exponent : ℤ) : ∀ c ∈ scientific digits exponent, IsNumberChar c := by
  rw [scientific.eq_def]
  simp only [List.forall_mem_cons, List.forall_mem_append]
  refine ⟨?_, .inr (.inr (.inl rfl)), ?_, fun c hc => .inl (isDigit_of_mem_zeroFill hc)⟩
  · split
    · exact fun c hc => .inl (hdigits c hc)
    · exact fun c hc => .inl (hdigits c hc)
    · simp only [List.forall_mem_cons] at hdigits ⊢
      exact ⟨.inl hdigits.1, .inr (.inl rfl), fun c hc => .inl (hdigits.2 c hc)⟩
  · split
    · exact .inr (.inr (.inr (.inr rfl)))
    · exact .inr (.inr (.inr (.inl rfl)))

theorem isNumberChar_finiteText (negative : Bool) (m : ℕ) (q : ℤ) :
    ∀ c ∈ finiteText negative m q, IsNumberChar c := by
  have hdigits : ∀ c ∈ ((Text.decimal (shortest m q).1).reverse.dropWhile (· = '0')).reverse,
      c.isDigit = true := fun c hc =>
    isDigit_of_mem_decimal (List.mem_reverse.1 ((List.dropWhile_sublist _).subset
      (List.mem_reverse.1 hc)))
  have hmagnitude : ∀ c ∈ magnitudeText m q, IsNumberChar c := by
    rw [magnitudeText]
    simp only []
    split
    · exact isNumberChar_positional hdigits _
    · exact isNumberChar_scientific hdigits _
  rw [finiteText]
  simp only [List.forall_mem_append]
  constructor
  · split
    · exact List.forall_mem_singleton.2 (.inr (.inr (.inr (.inr rfl))))
    · exact List.forall_mem_nil _
  · split
    · exact List.forall_mem_cons.2 ⟨.inl rfl, List.forall_mem_cons.2 ⟨.inr (.inl rfl),
        List.forall_mem_singleton.2 (.inl rfl)⟩⟩
    · exact hmagnitude

/-! ## All floating-point numbers -/

/-- Numbers that were written without their signs are read up to their end. -/
theorem readUnsigned_writeFloat {m : ℕ} {q : ℤ} {negative : Bool}
    (hc : IsCanonical (finite negative m q)) (most : ℕ) (hrest : EndsNumber rest) :
    readUnsigned most negative ((if m = 0 then "0.0".toList else magnitudeText m q) ++ rest) =
      .ok (float (finite negative m q), rest) := by
  split
  · rename_i hm
    have hq : q = leastExponent := hc.2.2.2.resolve_left (by rw [hm]; decide)
    rw [hm, hq]
    exact readUnsigned_zero most negative hrest
  · rename_i hm
    exact readUnsigned_magnitudeText (Nat.pos_of_ne_zero hm) hc most hrest

/-- A floating-point number begins as an integer does, or as one of two words. -/
theorem writeFloat_eq_cons {x : Binary64} (hx : IsCanonical x) :
    ∃ c s, writeFloat x = c :: s ∧ (StartsInteger c ∨ c = 'N' ∨ c = 'I') := by
  cases x with
  | nan => exact ⟨'N', _, rfl, .inr (.inl rfl)⟩
  | infinite negative =>
    cases negative
    · exact ⟨'I', _, rfl, .inr (.inr rfl)⟩
    · exact ⟨'-', _, rfl, .inl (.inl rfl)⟩
  | finite negative m q =>
    cases negative
    · have hend : EndsNumber [] := fun c hc => by cases hc
      have hread := readUnsigned_writeFloat hx 0 hend
      rw [List.append_nil] at hread
      obtain ⟨c, s, htext, hc⟩ := exists_eq_cons_of_readUnsigned hread
      exact ⟨c, s, by rw [writeFloat, finiteText, htext]; rfl, .inl (.inr hc)⟩
    · exact ⟨'-', _, rfl, .inl (.inl rfl)⟩

/-- A floating-point number that was written is read up to its end. -/
theorem readScalar_writeFloat {x : Binary64} (hx : IsCanonical x) (most : ℕ)
    (hrest : EndsNumber rest) : readScalar most (writeFloat x ++ rest) = .ok (float x, rest) := by
  cases x with
  | nan => rfl
  | infinite negative => cases negative <;> rfl
  | finite negative m q =>
    have hread := readUnsigned_writeFloat hx most hrest
    obtain ⟨c, s, htext, hc⟩ := exists_eq_cons_of_readUnsigned hread
    rw [htext] at hread
    rw [writeFloat, finiteText, List.append_assoc, htext]
    cases negative
    · exact (readScalar_of_isDigit most hc s).1.trans hread
    · exact (readScalar_of_isDigit most hc s).2.trans hread

end PromptFill.Json
