/-
  What the text of a colour tells about it.

  The channels of a colour are its lowest four bytes (`channel_eq_byteFrom`), so the numbers from
  which the text is written depend on the colour modulo `2^32` only, and three of them make it up
  modulo `2^24` (`emod_eq_channels`).  The opacity is the nearest hundredth (`natCast_hundredths`),
  and is written as floating-point arithmetic writes it (`fraction_hundredths`).

  Numerals hold no comma, so the text gives back the numerals of the three channels and the opacity
  (`rgba_inj`), and the opacity gives back its hundredths (`fraction_injective`).  `css_eq_iff` puts
  this together.
-/
import Mathlib.Algebra.Order.Round
import Mathlib.Data.Int.Bitwise
import Mathlib.Data.Rat.Floor
import Mathlib.Tactic.Linarith
import Mathlib.Tactic.Positivity
import Mathlib.Tactic.Ring
import PromptFill.Colour.Argb
import PromptFill.Number.Shortest
import PromptFill.Proofs.Json.Number
import PromptFill.Proofs.Text.Parts

namespace PromptFill

/-! ## Numerals -/

namespace Text

theorem decimal_injective : Function.Injective decimal := by
  intro m n h
  calc m = Nat.ofDigitChars 10 (decimal m) 0 := Nat.ofDigitChars_ten_toDigits.symm
    _ = Nat.ofDigitChars 10 (decimal n) 0 := by rw [h]
    _ = n := Nat.ofDigitChars_ten_toDigits

theorem not_mem_decimal {c : Char} (hc : c.isDigit = false) (n : ℕ) : c ∉ decimal n := by
  intro h
  rw [Json.isDigit_of_mem_decimal h] at hc
  cases hc

/-- A numeral before a separator that is no digit is determined by the text. -/
theorem decimal_append_inj {c : Char} (hc : c.isDigit = false) {m n : ℕ} {s t : Text} :
    decimal m ++ c :: s = decimal n ++ c :: t ↔ m = n ∧ s = t := by
  rw [append_cons_inj (not_mem_decimal hc m) (not_mem_decimal hc n), decimal_injective.eq_iff]

end Text

namespace Argb

variable {bit : ℕ} {x y : ℤ}

/-! ## Channels -/

/-- The eight bits from the given one on, in two's complement: shifted down and masked. -/
def byteFrom (bit : ℕ) (x : ℤ) : ℕ := (Int.land (x >>> bit) 0xFF).toNat

/-- Clearing the bits of a number in a mask of eight bits. -/
theorem ldiff_mask (n : ℕ) : Nat.ldiff 0xFF n = 255 - n % 256 := by
  have hmod : n % 2 ^ 8 < 2 ^ 8 := Nat.mod_lt n (by decide)
  have hsub : 255 - n % 256 = 2 ^ 8 - (n % 2 ^ 8 + 1) := by omega
  have hmask : 0xFF = 2 ^ 8 - 1 := rfl
  refine Nat.eq_of_testBit_eq fun i => ?_
  rw [hsub, hmask, Nat.testBit_ldiff, Nat.testBit_two_pow_sub_one,
    Nat.testBit_two_pow_sub_succ hmod, Nat.testBit_mod_two_pow]
  cases decide (i < 8) <;> rfl

theorem land_mask (x : ℤ) : Int.land x 0xFF = x % 256 := by
  cases x with
  | ofNat n =>
    have hand : n &&& 0xFF = n % 256 := Nat.and_two_pow_sub_one_eq_mod n 8
    exact congrArg Int.ofNat hand
  | negSucc n =>
    -- the bits of a negative number are those of `n`, inverted
    have hland : Int.land (Int.negSucc n) 0xFF = (Nat.ldiff 0xFF n : ℕ) := rfl
    rw [hland, ldiff_mask]
    omega

theorem channel_eq_byteFrom (bit : ℕ) (x : ℤ) : channel bit x = byteFrom bit x := by
  rw [channel, byteFrom, land_mask]

theorem natCast_channel (bit : ℕ) (x : ℤ) : (channel bit x : ℤ) = x / 2 ^ bit % 256 := by
  rw [channel, Int.shiftRight_eq_div_pow, Int.toNat_of_nonneg (Int.emod_nonneg _ (by decide))]
  norm_cast

theorem channel_le (bit : ℕ) (x : ℤ) : channel bit x ≤ 255 := by
  have h := natCast_channel bit x
  omega

/-- A channel depends on the bits up to its highest one only. -/
theorem channel_emod {n : ℕ} (h : bit + 8 ≤ n) (x : ℤ) :
    channel bit (x % 2 ^ n) = channel bit x := by
  obtain ⟨k, rfl⟩ := Nat.exists_eq_add_of_le h
  have hx : x % 2 ^ (bit + 8 + k) =
      x + 2 ^ bit * (256 * (2 ^ k * -(x / 2 ^ (bit + 8 + k)))) := by
    rw [Int.emod_def]
    ring
  rw [← Int.natCast_inj, natCast_channel, natCast_channel, hx,
    Int.add_mul_ediv_left _ _ (by positivity), Int.add_mul_emod_self_left]

theorem emod_eq_channels (x : ℤ) :
    x % 2 ^ 24 = channel 16 x * 65536 + channel 8 x * 256 + channel 0 x := by
  rw [natCast_channel, natCast_channel, natCast_channel]
  omega

theorem emod_eq_iff : x % 2 ^ 24 = y % 2 ^ 24 ↔
    channel 16 x = channel 16 y ∧ channel 8 x = channel 8 y ∧ channel 0 x = channel 0 y := by
  have hgreen := channel_le 8
  have hblue := channel_le 0
  rw [emod_eq_channels, emod_eq_channels]
  grind

/-! ## Opacity -/

/-- The nearest hundredth; a fraction of 255 never lies in the middle of two. -/
theorem natCast_hundredths (a : ℕ) : (hundredths a : ℤ) = round ((a : ℚ) / 255 * 100) := by
  have hlow : (510 * hundredths a : ℚ) ≤ 200 * a + 255 := by
    rw [hundredths]
    exact_mod_cast Nat.mul_div_le (200 * a + 255) 510
  have hhigh : (200 * a + 255 : ℚ) < 510 * (hundredths a + 1) := by
    rw [hundredths]
    exact_mod_cast Nat.lt_mul_div_succ (200 * a + 255) (by decide)
  rw [round_eq, eq_comm, Int.floor_eq_iff]
  push_cast
  constructor <;> linarith

/-- The decimal places of so many hundredths. -/
def places (k : ℕ) : Text :=
  if k % 10 = 0 then Text.decimal (k / 10) else Text.zeroFill 2 (Text.decimal k)

/-- Reads decimal places, of which there may be one or two. -/
def ofPlaces (s : Text) : ℕ := Nat.ofDigitChars 10 (s ++ List.replicate (2 - s.length) '0') 0

theorem ofPlaces_places {k : ℕ} (h : k < 100) : ofPlaces (places k) = k := by
  revert k
  decide

theorem fraction_eq (h : ℕ) : fraction h = Text.decimal (h / 100) ++ '.' :: places (h % 100) := by
  rw [fraction, places, Nat.mod_mod_of_dvd h (by decide)]

theorem fraction_injective : Function.Injective fraction := by
  intro h h' heq
  rw [fraction_eq, fraction_eq, Text.decimal_append_inj (by decide)] at heq
  obtain ⟨hwhole, hplaces⟩ := heq
  have hmod : h % 100 = h' % 100 := by
    rw [← ofPlaces_places (Nat.mod_lt h (by decide)), hplaces,
      ofPlaces_places (Nat.mod_lt h' (by decide))]
  omega

/-- The hundredths nearest to a number that is not negative, a half going to the even neighbour. -/
def nearestHundredths : Binary64 → ℕ
  | .finite _ m q =>
    let (up, down) := Binary64.power 2 q
    Binary64.roundQuotient (100 * m * up) down
  | _ => 0

/-- The text of `a / 255` as floating-point arithmetic has it: the quotient is rounded to a number,
    this to hundredths, and these to a number again, whose shortest text is written. -/
def opacityText (a : ℕ) : Text :=
  (Binary64.ofDecimal false (nearestHundredths (Binary64.ofFraction false a 255)) (-2)).text

/-- Rounding the quotient first does not lead to another hundredth. -/
theorem nearestHundredths_ofFraction {a : ℕ} (ha : a ≤ 255) :
    nearestHundredths (Binary64.ofFraction false a 255) = hundredths a := by
  revert a
  decide +kernel

theorem text_ofDecimal {h : ℕ} (hh : h ≤ 100) :
    (Binary64.ofDecimal false h (-2)).text = fraction h := by
  revert h
  decide +kernel

theorem fraction_hundredths {a : ℕ} (ha : a ≤ 255) : fraction (hundredths a) = opacityText a := by
  have hle : hundredths a ≤ 100 := by
    rw [hundredths]
    omega
  rw [opacityText, nearestHundredths_ofFraction ha, text_ofDecimal hle]

/-! ## The text of a colour -/

/-- A colour in a style sheet, from its numbers and the text of its opacity. -/
def rgba (r g b : ℕ) (opacity : Text) : Text :=
  "rgba(".toList ++ Text.decimal r ++ ", ".toList ++ Text.decimal g ++ ", ".toList ++
    Text.decimal b ++ ", ".toList ++ opacity ++ ")".toList

theorem css_eq_rgba (x : ℤ) : css x =
    rgba (channel 16 x) (channel 8 x) (channel 0 x) (fraction (hundredths (channel 24 x))) := by
  unfold css rgba
  rfl

theorem rgba_inj {r g b r' g' b' : ℕ} {opacity opacity' : Text} :
    rgba r g b opacity = rgba r' g' b' opacity' ↔
      r = r' ∧ g = g' ∧ b = b' ∧ opacity = opacity' := by
  have hcomma : ", ".toList = [',', ' '] := rfl
  have hdigit : ','.isDigit = false := by decide
  unfold rgba
  simp only [hcomma, List.append_assoc, List.append_cancel_left_eq, List.append_cancel_right_eq,
    List.cons_append, List.nil_append, List.cons.injEq, true_and, Text.decimal_append_inj hdigit]

theorem css_eq_iff_hundredths : css x = css y ↔
    x % 2 ^ 24 = y % 2 ^ 24 ∧ hundredths (channel 24 x) = hundredths (channel 24 y) := by
  rw [css_eq_rgba, css_eq_rgba, rgba_inj, fraction_injective.eq_iff, emod_eq_iff, and_assoc,
    and_assoc]

theorem css_emod (x : ℤ) : css (x % 2 ^ 32) = css x := by
  rw [css_eq_rgba, css_eq_rgba, channel_emod (by decide), channel_emod (by decide),
    channel_emod (by decide), channel_emod (by decide)]

/-- **What the text of a colour tells.**  Two colours of any size and sign have the same text
    exactly if they agree modulo `2^24` and their opacities, the bytes from bit 24 on as fractions
    of 255, round to the same hundredth.  So only the colour modulo `2^32` counts.  The three
    numbers that are written are bytes and make up the colour modulo `2^24`, and the opacity is
    written behind them as floating-point arithmetic has it. -/
theorem css_eq_iff (x y : ℤ) :
    (css x = css y ↔ x % 2 ^ 24 = y % 2 ^ 24 ∧
      round ((byteFrom 24 x : ℚ) / 255 * 100) = round ((byteFrom 24 y : ℚ) / 255 * 100)) ∧
    css x = css (x % 2 ^ 32) ∧
    ∃ r g b : ℕ, css x = rgba r g b (opacityText (byteFrom 24 x)) ∧
      r ≤ 255 ∧ g ≤ 255 ∧ b ≤ 255 ∧ x % 2 ^ 24 = r * 65536 + g * 256 + b := by
  refine ⟨?_, (css_emod x).symm, channel 16 x, channel 8 x, channel 0 x, ?_, channel_le 16 x,
    channel_le 8 x, channel_le 0 x, emod_eq_channels x⟩
  · rw [css_eq_iff_hundredths, ← natCast_hundredths, ← natCast_hundredths, Int.natCast_inj,
      channel_eq_byteFrom, channel_eq_byteFrom]
  · rw [css_eq_rgba, fraction_hundredths (channel_le 24 x), channel_eq_byteFrom 24]

/-- In two's complement all bits of the number below zero are set. -/
example : css (-1) = "rgba(255, 255, 255, 1.0)".toList := by decide +kernel

end Argb

end PromptFill
