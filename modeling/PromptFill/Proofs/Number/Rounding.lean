/-
  Rounding to floating-point numbers.

  A fraction is rounded to the nearest number: its magnitude decides the unit
  (`magnitude_spec`), and the quotient by the unit goes to the nearest natural number
  (`isNearest_roundQuotient`).  So whatever lies in the rounding interval of a number rounds to
  that number (`ofFraction_eq`, `ofDecimal_eq`), and what a fraction rounds to has the one form
  that there is for each number (`isCanonical_ofFraction`).
-/
import Mathlib.Algebra.Order.Field.Power
import Mathlib.Data.Nat.Log
import Mathlib.Tactic.FieldSimp
import Mathlib.Tactic.Linarith
import Mathlib.Tactic.NormNum
import Mathlib.Tactic.Positivity
import Mathlib.Tactic.Ring
import PromptFill.Number.Shortest

namespace PromptFill.Binary64

variable {m num den : ℕ} {q : ℤ} {x : ℚ}

/-! ## Powers -/

theorem power_pos {base : ℕ} (h : 0 < base) (k : ℤ) : 0 < (power base k).1 ∧ 0 < (power base k).2 :=
  ⟨Nat.pow_pos h, Nat.pow_pos h⟩

/-- The two factors of a power are the two sides of a fraction. -/
theorem power_div {base : ℕ} (h : 0 < base) (k : ℤ) :
    ((power base k).1 : ℚ) / (power base k).2 = (base : ℚ) ^ k := by
  have hbase : (base : ℚ) ≠ 0 := Nat.cast_ne_zero.2 h.ne'
  have hup : ((power base k).1 : ℚ) = (base : ℚ) ^ k.toNat := Nat.cast_pow _ _
  have hdown : ((power base k).2 : ℚ) = (base : ℚ) ^ (-k).toNat := Nat.cast_pow _ _
  rw [hup, hdown, ← zpow_natCast, ← zpow_natCast, ← zpow_sub₀ hbase]
  congr 1
  omega

/-- The unit of a number is four times that of its rounding interval. -/
theorem two_zpow_eq (q : ℤ) : (2 : ℚ) ^ q = 4 * 2 ^ (q - 2) := by
  rw [zpow_sub₀ two_ne_zero]
  norm_num
  ring

theorem two_zpow_add_fiftyTwo (q : ℤ) : (2 : ℚ) ^ (q + 52) = leastNormal * 2 ^ q := by
  rw [zpow_add₀ two_ne_zero, leastNormal]
  norm_num
  ring

/-! ## The nearest natural number -/

/-- Whether `m` is the natural number nearest to `x`, a half going to the even neighbour. -/
def IsNearest (x : ℚ) (m : ℕ) : Prop :=
  (m : ℚ) - 1 / 2 ≤ x ∧ x ≤ m + 1 / 2 ∧ (m % 2 = 1 → (m : ℚ) - 1 / 2 < x ∧ x < m + 1 / 2)

theorem IsNearest.unique {n : ℕ} (hm : IsNearest x m) (hn : IsNearest x n) : m = n := by
  obtain ⟨hm₁, hm₂, hm₃⟩ := hm
  obtain ⟨hn₁, hn₂, hn₃⟩ := hn
  have hle : m ≤ n + 1 := by
    have : (m : ℚ) ≤ n + 1 := by linarith
    exact_mod_cast this
  have hge : n ≤ m + 1 := by
    have : (n : ℚ) ≤ m + 1 := by linarith
    exact_mod_cast this
  -- of two neighbours one is odd, which a half does not go to
  obtain rfl | rfl | rfl : m = n ∨ m = n + 1 ∨ n = m + 1 := by omega
  · rfl
  · push_cast at *
    obtain h | h : n % 2 = 1 ∨ (n + 1) % 2 = 1 := by omega
    · linarith [(hn₃ h).2]
    · linarith [(hm₃ h).1]
  · push_cast at *
    obtain h | h : m % 2 = 1 ∨ (m + 1) % 2 = 1 := by omega
    · linarith [(hm₃ h).2]
    · linarith [(hn₃ h).1]

theorem isNearest_roundQuotient (num : ℕ) (hden : 0 < den) :
    IsNearest (num / den) (roundQuotient num den) := by
  have hden' : (0 : ℚ) < den := Nat.cast_pos.2 hden
  have hmod : ((num % den : ℕ) : ℚ) < den := Nat.cast_lt.2 (Nat.mod_lt _ hden)
  have hpos : (0 : ℚ) ≤ (num % den : ℕ) := Nat.cast_nonneg _
  have hnum : (num : ℚ) = (num / den : ℕ) * den + (num % den : ℕ) := by
    exact_mod_cast (Nat.div_add_mod' num den).symm
  rw [IsNearest, le_div_iff₀ hden', div_le_iff₀ hden', lt_div_iff₀ hden', div_lt_iff₀ hden', hnum,
    roundQuotient]
  generalize num / den = a
  generalize num % den = r at *
  split_ifs with hless hmore
  · have : (2 * r : ℚ) < den := by exact_mod_cast hless
    refine ⟨?_, ?_, fun _ => ⟨?_, ?_⟩⟩ <;> linarith
  · have : (den : ℚ) < 2 * r := by exact_mod_cast hmore
    push_cast
    refine ⟨?_, ?_, fun _ => ⟨?_, ?_⟩⟩ <;> linarith
  · -- a tie: the even one of the two neighbours
    have htie : (2 * r : ℚ) = den := by
      have : 2 * r = den := by omega
      exact_mod_cast this
    have heven : (a + a % 2) % 2 ≠ 1 := by omega
    obtain h | h : a % 2 = 0 ∨ a % 2 = 1 := by omega
    all_goals
      rw [h] at heven ⊢
      push_cast
      refine ⟨?_, ?_, fun hodd => absurd hodd heven⟩ <;> linarith

/-! ## Magnitudes -/

theorem log2_bounds {n : ℕ} (hn : 0 < n) :
    (2 : ℚ) ^ (n.log2 : ℤ) ≤ n ∧ (n : ℚ) < 2 ^ ((n.log2 : ℤ) + 1) := by
  constructor
  · exact_mod_cast Nat.log2_self_le hn.ne'
  · exact_mod_cast Nat.lt_log2_self

/-- A positive fraction lies between two neighbouring powers of two. -/
theorem magnitude_spec (hnum : 0 < num) (hden : 0 < den) :
    (2 : ℚ) ^ magnitude num den ≤ num / den ∧ (num / den : ℚ) < 2 ^ (magnitude num den + 1) := by
  have hden' : (0 : ℚ) < den := Nat.cast_pos.2 hden
  obtain ⟨hnum₁, hnum₂⟩ := log2_bounds hnum
  obtain ⟨hden₁, hden₂⟩ := log2_bounds hden
  set e : ℤ := (num.log2 : ℤ) - den.log2 with he
  have hlow : (2 : ℚ) ^ (e - 1) ≤ num / den := by
    rw [le_div_iff₀ hden']
    calc (2 : ℚ) ^ (e - 1) * den ≤ 2 ^ (e - 1) * 2 ^ ((den.log2 : ℤ) + 1) := by gcongr
      _ = 2 ^ (num.log2 : ℤ) := by rw [← zpow_add₀ two_ne_zero, he]; congr 1; omega
      _ ≤ num := hnum₁
  have hhigh : (num / den : ℚ) < 2 ^ (e + 1) := by
    rw [div_lt_iff₀ hden']
    calc (num : ℚ) < 2 ^ ((num.log2 : ℤ) + 1) := hnum₂
      _ = 2 ^ (e + 1) * 2 ^ (den.log2 : ℤ) := by rw [← zpow_add₀ two_ne_zero, he]; congr 1; omega
      _ ≤ 2 ^ (e + 1) * den := by gcongr
  have hless : num * (power 2 e).2 < den * (power 2 e).1 ↔ (num / den : ℚ) < 2 ^ e := by
    have hpow : ((power 2 e).1 : ℚ) / (power 2 e).2 = 2 ^ e := power_div two_pos e
    have hdown : (0 : ℚ) < (power 2 e).2 := Nat.cast_pos.2 (power_pos two_pos e).2
    rw [← hpow, div_lt_div_iff₀ hden' hdown, mul_comm ((power 2 e).1 : ℚ)]
    norm_cast
  have heq : magnitude num den = if (num / den : ℚ) < 2 ^ e then e - 1 else e := by
    rw [magnitude, ← he]
    exact if_congr hless rfl rfl
  rw [heq]
  split
  · rename_i h
    exact ⟨hlow, by rwa [sub_add_cancel]⟩
  · rename_i h
    exact ⟨not_lt.1 h, hhigh⟩

/-- Only one power of two has a fraction between it and the next. -/
theorem magnitude_eq (hnum : 0 < num) (hden : 0 < den) {e : ℤ} (hlow : (2 : ℚ) ^ e ≤ num / den)
    (hhigh : (num / den : ℚ) < 2 ^ (e + 1)) : magnitude num den = e := by
  obtain ⟨h₁, h₂⟩ := magnitude_spec hnum hden
  have hle : magnitude num den < e + 1 :=
    (zpow_lt_zpow_iff_right₀ one_lt_two).1 (h₁.trans_lt hhigh)
  have hge : e < magnitude num den + 1 :=
    (zpow_lt_zpow_iff_right₀ one_lt_two).1 (hlow.trans_lt h₂)
  omega

/-! ## Rounding a fraction -/

/-- Whether a number has the one form in which there is each number. -/
def IsCanonical : Binary64 → Prop
  | finite _ m q => m < 2 * leastNormal ∧ leastExponent ≤ q ∧ q ≤ greatestExponent ∧
      (leastNormal ≤ m ∨ q = leastExponent)
  | _ => True

theorem isCanonical_zero (negative : Bool) : IsCanonical (zero negative) :=
  ⟨by decide, le_rfl, by decide, .inr rfl⟩

/-- The unit that a fraction is rounded to a multiple of. -/
def unitOf (num den : ℕ) : ℤ := max (magnitude num den - 52) leastExponent

theorem isNearest_unitOf (num : ℕ) (hden : 0 < den) :
    IsNearest ((num / den : ℚ) / 2 ^ unitOf num den)
      (roundQuotient (num * (power 2 (unitOf num den)).2)
        (den * (power 2 (unitOf num den)).1)) := by
  obtain ⟨hup, hdown⟩ := power_pos two_pos (unitOf num den)
  have hnear := isNearest_roundQuotient (num * (power 2 (unitOf num den)).2)
    (Nat.mul_pos hden hup)
  have hpow : ((power 2 (unitOf num den)).1 : ℚ) / (power 2 (unitOf num den)).2 =
      2 ^ unitOf num den := power_div two_pos _
  have hdown' : ((power 2 (unitOf num den)).2 : ℚ) ≠ 0 := Nat.cast_ne_zero.2 hdown.ne'
  have hfrac : ((num * (power 2 (unitOf num den)).2 : ℕ) : ℚ) /
      (den * (power 2 (unitOf num den)).1 : ℕ) = (num / den : ℚ) / 2 ^ unitOf num den := by
    rw [← hpow]
    push_cast
    field_simp
  rwa [hfrac] at hnear

/-- A fraction is rounded to the nearest multiple of its unit. -/
theorem ofFraction_of_isNearest (negative : Bool) (hnum : 0 < num) (hden : 0 < den)
    (hm : IsNearest ((num / den : ℚ) / 2 ^ unitOf num den) m) :
    ofFraction negative num den =
      if m = 2 * leastNormal then
        if greatestExponent < unitOf num den + 1 then infinite negative
        else finite negative leastNormal (unitOf num den + 1)
      else if greatestExponent < unitOf num den then infinite negative
      else finite negative m (unitOf num den) := by
  have hround := (isNearest_unitOf num hden).unique hm
  rw [ofFraction, if_neg hnum.ne', ← unitOf]
  simp only [hround]
  split <;> rfl

/-- What a fraction rounds to has the form that there is for each number. -/
theorem isCanonical_ofFraction (negative : Bool) (num : ℕ) (hden : 0 < den) :
    IsCanonical (ofFraction negative num den) := by
  rcases Nat.eq_zero_or_pos num with rfl | hnum
  · exact isCanonical_zero negative
  obtain ⟨hmag₁, hmag₂⟩ := magnitude_spec hnum hden
  have hunit : (0 : ℚ) < 2 ^ unitOf num den := by positivity
  have hnear := isNearest_unitOf num hden
  generalize roundQuotient _ _ = r at hnear
  have hle : r ≤ 2 * leastNormal := by
    have hmag : (num / den : ℚ) < 2 ^ (unitOf num den + 52 + 1) :=
      hmag₂.trans_le (zpow_le_zpow_right₀ one_le_two (by unfold unitOf; omega))
    rw [zpow_add_one₀ two_ne_zero, two_zpow_add_fiftyTwo, mul_right_comm, ← div_lt_iff₀ hunit]
      at hmag
    have hr : (r : ℚ) < 2 * leastNormal + 1 := by linarith [hnear.1]
    exact Nat.lt_succ_iff.1 (by exact_mod_cast hr)
  have hge : leastNormal ≤ r ∨ unitOf num den = leastExponent := by
    rcases le_or_gt (magnitude num den - 52) leastExponent with h | h
    · exact .inr (max_eq_right h)
    · left
      have hq : unitOf num den + 52 = magnitude num den := by
        rw [unitOf, max_eq_left h.le, sub_add_cancel]
      rw [← hq, two_zpow_add_fiftyTwo, ← le_div_iff₀ hunit] at hmag₁
      have hr : (leastNormal : ℚ) < r + 1 := by linarith [hnear.2.1]
      exact Nat.lt_succ_iff.1 (by exact_mod_cast hr)
  have hleast : leastExponent ≤ unitOf num den := le_max_right _ _
  rw [ofFraction_of_isNearest negative hnum hden hnear]
  split_ifs with htop
  · trivial
  · exact ⟨by decide, by omega, by omega, .inl le_rfl⟩
  · trivial
  · exact ⟨by omega, hleast, by omega, hge⟩

/-! ## The rounding interval -/

/-- Whether `x` lies in the interval of the numbers that round to `m · 2^q`, whose ends belong to
    it if `m` is even. -/
structure RoundsTo (x : ℚ) (m : ℕ) (q : ℤ) : Prop where
  low_le : ((roundingInterval m q).1 : ℚ) * 2 ^ (q - 2) ≤ x
  le_high : x ≤ (roundingInterval m q).2 * 2 ^ (q - 2)
  of_odd : m % 2 = 1 → ((roundingInterval m q).1 : ℚ) * 2 ^ (q - 2) < x ∧
    x < (roundingInterval m q).2 * 2 ^ (q - 2)

/-- The ends of the interval. -/
theorem roundingInterval_eq (hm : 0 < m) :
    ((roundingInterval m q).1 : ℚ) =
        (if m = leastNormal ∧ leastExponent < q then 4 * (m : ℚ) - 1 else 4 * m - 2) ∧
      ((roundingInterval m q).2 : ℚ) = 4 * m + 2 := by
  refine ⟨?_, by rw [roundingInterval]; push_cast; rfl⟩
  simp only [roundingInterval]
  split
  · rw [Nat.cast_sub (by omega)]
    push_cast
    rfl
  · rw [Nat.cast_sub (by omega)]
    push_cast
    rfl

namespace RoundsTo

theorem isNearest (hm : 0 < m) (h : RoundsTo x m q) : IsNearest (x / 2 ^ q) m := by
  have hunit : (0 : ℚ) < 2 ^ (q - 2) := by positivity
  have hdiv : (0 : ℚ) < 2 ^ q := by positivity
  obtain ⟨hlow, hhigh⟩ := roundingInterval_eq (q := q) hm
  have hlow' : 4 * (m : ℚ) - 2 ≤ (roundingInterval m q).1 := by
    rw [hlow]
    split <;> linarith
  have hle := h.low_le
  have hge := h.le_high
  rw [hhigh] at hge
  refine ⟨?_, ?_, fun hodd => ?_⟩
  · rw [le_div_iff₀ hdiv, two_zpow_eq]
    nlinarith
  · rw [div_le_iff₀ hdiv, two_zpow_eq]
    nlinarith
  · obtain ⟨h₁, h₂⟩ := h.of_odd hodd
    rw [hhigh] at h₂
    rw [lt_div_iff₀ hdiv, div_lt_iff₀ hdiv, two_zpow_eq]
    constructor <;> nlinarith

theorem two_zpow_le (hm : 0 < m) (h : RoundsTo x m q) : 2 ^ (q - 1) ≤ x := by
  have hunit : (0 : ℚ) < 2 ^ q := by positivity
  have hm' : (1 : ℚ) ≤ m := by exact_mod_cast hm
  have hle := (h.isNearest hm).1
  rw [le_div_iff₀ hunit] at hle
  rw [zpow_sub_one₀ two_ne_zero]
  nlinarith

/-- What rounds to a number is less than any that needs a greater unit. -/
theorem lt_two_zpow (hm : 0 < m) (hmost : m < 2 * leastNormal) (h : RoundsTo x m q) :
    x < 2 ^ (q + 52 + 1) := by
  have hunit : (0 : ℚ) < 2 ^ q := by positivity
  have hm' : (m : ℚ) + 1 ≤ 2 * leastNormal := by exact_mod_cast hmost
  have hx := (h.isNearest hm).2.1
  rw [div_le_iff₀ hunit] at hx
  rw [zpow_add_one₀ two_ne_zero, two_zpow_add_fiftyTwo]
  nlinarith

/-- Only the least `m` has numbers in its interval that are rounded to multiples of a smaller
    unit, and of that unit they are nearest to the multiple twice as great. -/
theorem of_lt (hm : leastNormal ≤ m) (hq : leastExponent < q) (h : RoundsTo x m q)
    (hlow : x < 2 ^ (q + 52)) :
    m = leastNormal ∧ 2 ^ (q - 1 + 52) ≤ x ∧ IsNearest (x / 2 ^ (q - 1)) (2 * leastNormal) := by
  have hunit : (0 : ℚ) < 2 ^ (q - 2) := by positivity
  have hhalf : (2 : ℚ) ^ (q - 1) = 2 * 2 ^ (q - 2) := by
    rw [show q - 1 = q - 2 + 1 by ring, zpow_add_one₀ two_ne_zero, mul_comm]
  have hle := h.low_le
  rw [(roundingInterval_eq (Nat.lt_of_lt_of_le (by decide) hm)).1] at hle
  rw [two_zpow_add_fiftyTwo, two_zpow_eq] at hlow
  have hm' : m = leastNormal := by
    by_contra hne
    have hgt : (leastNormal : ℚ) + 1 ≤ m := by
      have : leastNormal + 1 ≤ m := by omega
      exact_mod_cast this
    rw [if_neg (by tauto)] at hle
    nlinarith
  subst hm'
  rw [if_pos ⟨rfl, hq⟩] at hle
  have hpos : (0 : ℚ) < 2 ^ (q - 1) := by positivity
  refine ⟨rfl, ?_, ?_, ?_, fun hodd => absurd hodd (by decide)⟩
  · rw [two_zpow_add_fiftyTwo, hhalf]
    norm_num [leastNormal] at hle ⊢
    linarith
  · rw [le_div_iff₀ hpos, hhalf]
    push_cast
    linarith
  · rw [div_le_iff₀ hpos, hhalf]
    push_cast
    linarith

end RoundsTo

/-- A fraction in the rounding interval of a number rounds to it. -/
theorem ofFraction_eq {negative : Bool} (hnum : 0 < num) (hden : 0 < den) (hm : 0 < m)
    (hc : IsCanonical (finite negative m q)) (h : RoundsTo (num / den) m q) :
    ofFraction negative num den = finite negative m q := by
  obtain ⟨hmost, hleast, hgreatest, hnormal⟩ := hc
  have hupper := h.lt_two_zpow hm hmost
  -- mostly the fraction is rounded to a multiple of the number's own unit
  have hsame (hq : unitOf num den = q) : ofFraction negative num den = finite negative m q := by
    have hnear := h.isNearest hm
    rw [← hq] at hnear
    rw [ofFraction_of_isNearest negative hnum hden hnear, hq, if_neg (by omega), if_neg (by omega)]
  rcases le_or_gt ((2 : ℚ) ^ (q + 52)) (num / den) with hlow | hlow
  · refine hsame ?_
    rw [unitOf, magnitude_eq hnum hden hlow hupper]
    omega
  by_cases hq : q = leastExponent
  · have hmag : magnitude num den < q + 52 :=
      (zpow_lt_zpow_iff_right₀ one_lt_two).1 ((magnitude_spec hnum hden).1.trans_lt hlow)
    exact hsame (by unfold unitOf; omega)
  · obtain ⟨rfl, hmag, hnear⟩ := h.of_lt (hnormal.resolve_right hq) (by omega) hlow
    have hunit : unitOf num den = q - 1 := by
      rw [unitOf, magnitude_eq hnum hden hmag (by rwa [show q - 1 + 52 + 1 = q + 52 by ring])]
      omega
    rw [← hunit] at hnear
    rw [ofFraction_of_isNearest negative hnum hden hnear, hunit, if_pos rfl, if_neg (by omega),
      sub_add_cancel]

/-! ## Decimals -/

/-- The numeral of a positive number tells between which powers of ten the number lies. -/
theorem toDigits_bounds {n : ℕ} (hn : 0 < n) :
    10 ^ ((Nat.toDigits 10 n).length - 1) ≤ n ∧ n < 10 ^ (Nat.toDigits 10 n).length := by
  have hlen : 0 < (Nat.toDigits 10 n).length := Nat.length_toDigits_pos
  refine ⟨?_, (Nat.length_toDigits_le_iff (by decide) hlen).1 le_rfl⟩
  by_contra hlt
  rcases Nat.eq_zero_or_pos ((Nat.toDigits 10 n).length - 1) with h | h
  · rw [h] at hlt
    omega
  · have := (Nat.length_toDigits_le_iff (by decide) h).2 (not_le.1 hlt)
    omega

theorem decimal_bounds {digits : ℕ} (hdigits : 0 < digits) (exponent : ℤ) :
    (10 : ℚ) ^ ((Nat.toDigits 10 digits).length + exponent - 1) ≤ digits * 10 ^ exponent ∧
      (digits * 10 ^ exponent : ℚ) < 10 ^ ((Nat.toDigits 10 digits).length + exponent) := by
  have hten : (0 : ℚ) < 10 ^ exponent := by positivity
  have hlen : 1 ≤ (Nat.toDigits 10 digits).length := Nat.length_toDigits_pos
  obtain ⟨hlow, hhigh⟩ := toDigits_bounds hdigits
  have hlow' : (10 : ℚ) ^ ((Nat.toDigits 10 digits).length - 1) ≤ digits := by exact_mod_cast hlow
  have hhigh' : (digits : ℚ) < 10 ^ (Nat.toDigits 10 digits).length := by exact_mod_cast hhigh
  rw [← zpow_natCast] at hlow' hhigh'
  constructor
  · rw [add_sub_right_comm, zpow_add₀ (by norm_num)]
    push_cast [hlen] at hlow'
    gcongr
  · rw [zpow_add₀ (by norm_num)]
    gcongr

/-- A decimal in the rounding interval of a number rounds to it. -/
theorem ofDecimal_eq {negative : Bool} {digits : ℕ} {exponent : ℤ} (hdigits : 0 < digits)
    (hm : 0 < m) (hc : IsCanonical (finite negative m q))
    (h : RoundsTo (digits * 10 ^ exponent) m q) :
    ofDecimal negative digits exponent = finite negative m q := by
  obtain ⟨hlow, hhigh⟩ := decimal_bounds hdigits exponent
  -- it is neither too great nor too small for a quick answer
  have hplaces : (Nat.toDigits 10 digits).length + exponent ≤ 310 := by
    by_contra hmore
    have hten : (10 : ℚ) ^ (310 : ℤ) ≤ digits * 10 ^ exponent :=
      (zpow_le_zpow_right₀ (by norm_num) (by omega)).trans hlow
    have htwo : (digits * 10 ^ exponent : ℚ) < 2 ^ (1024 : ℤ) := by
      refine (h.lt_two_zpow hm hc.1).trans_le (zpow_le_zpow_right₀ one_le_two ?_)
      have := hc.2.2.1
      rw [greatestExponent] at this
      omega
    have hless : (2 : ℚ) ^ (1024 : ℤ) ≤ 10 ^ (310 : ℤ) := by
      have : 2 ^ 1024 ≤ 10 ^ 310 := by decide +kernel
      exact_mod_cast this
    exact absurd htwo (not_lt.2 (hless.trans hten))
  have hplaces' : -330 ≤ (Nat.toDigits 10 digits).length + exponent := by
    by_contra hless
    have hten : (digits * 10 ^ exponent : ℚ) ≤ 10 ^ (-331 : ℤ) :=
      hhigh.le.trans (zpow_le_zpow_right₀ (by norm_num) (by omega))
    have htwo : (2 : ℚ) ^ (-1075 : ℤ) ≤ digits * 10 ^ exponent := by
      refine le_trans (zpow_le_zpow_right₀ one_le_two ?_) (h.two_zpow_le hm)
      have := hc.2.1
      rw [leastExponent] at this
      omega
    have hmore : (10 : ℚ) ^ (-331 : ℤ) < 2 ^ (-1075 : ℤ) := by
      have : 2 ^ 1075 < 10 ^ 331 := by decide +kernel
      rw [zpow_neg, zpow_neg, inv_lt_inv₀ (by positivity) (by positivity)]
      exact_mod_cast this
    exact absurd hmore (not_lt.2 (htwo.trans hten))
  obtain ⟨hup, hdown⟩ := power_pos (by decide : 0 < 10) exponent
  rw [ofDecimal]
  simp only [if_neg hdigits.ne', if_neg (not_lt.2 hplaces), if_neg (not_lt.2 hplaces')]
  refine ofFraction_eq (Nat.mul_pos hdigits hup) hdown hm hc ?_
  have hpow : ((power 10 exponent).1 : ℚ) / (power 10 exponent).2 = 10 ^ exponent :=
    power_div (by decide) exponent
  rw [Nat.cast_mul, mul_div_assoc, hpow]
  exact h

theorem isCanonical_ofDecimal (negative : Bool) (digits : ℕ) (exponent : ℤ) :
    IsCanonical (ofDecimal negative digits exponent) := by
  rw [ofDecimal]
  split_ifs
  · exact isCanonical_zero negative
  · trivial
  · exact isCanonical_zero negative
  · exact isCanonical_ofFraction negative _ (power_pos (by decide) exponent).2

end PromptFill.Binary64
