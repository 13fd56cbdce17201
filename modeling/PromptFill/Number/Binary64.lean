/-
  Binary floating-point numbers of 64 bits.

  A finite number is `± m · 2^q` with `m < 2^53` and `q ≥ -1074`; to have one form for each
  number, `m ≥ 2^52` unless `q = -1074`.  `ofDecimal` is the number nearest to a decimal
  fraction; of two that are equally near it is the one with the even `m`.
-/
namespace PromptFill

/-- A floating-point number. -/
inductive Binary64 where
  | nan
  | infinite (negative : Bool)
  /-- The number `± m · 2^q`. -/
  | finite (negative : Bool) (m : Nat) (q : Int)
deriving DecidableEq, Repr

namespace Binary64

/-- The least exponent of a finite number. -/
def leastExponent : Int := -1074

/-- The greatest exponent of a finite number. -/
def greatestExponent : Int := 971

/-- Zero, with a sign. -/
def zero (negative : Bool) : Binary64 := finite negative 0 leastExponent

/-- The natural number nearest to `num / den`, a half going to the even neighbour. -/
def roundQuotient (num den : Nat) : Nat :=
  let q := num / den
  let r := 2 * (num % den)
  if r < den then q else if den < r then q + 1 else q + q % 2

/-- The factor `base^k` on the upper and on the lower side of a fraction. -/
def power (base : Nat) (k : Int) : Nat × Nat := (Nat.pow base k.toNat, Nat.pow base (-k).toNat)

/-- The least `m` of a number whose `q` is not the least, which is `2^52`. -/
def leastNormal : Nat := 4503599627370496

/-- The exponent `e` with `2^e ≤ num / den < 2^(e + 1)`, for a positive fraction. -/
def magnitude (num den : Nat) : Int :=
  let e : Int := (num.log2 : Int) - (den.log2 : Int)
  let (up, down) := power 2 e
  if num * down < den * up then e - 1 else e

/-- The number nearest to `± num / den`. -/
def ofFraction (negative : Bool) (num den : Nat) : Binary64 :=
  if num = 0 then zero negative
  else
    let q := max (magnitude num den - 52) leastExponent
    let (up, down) := power 2 q
    let m := roundQuotient (num * down) (den * up)
    let (m, q) := if m = 2 * leastNormal then (leastNormal, q + 1) else (m, q)
    if greatestExponent < q then infinite negative else finite negative m q

/-- The number nearest to `± digits · 10^exponent`. -/
def ofDecimal (negative : Bool) (digits : Nat) (exponent : Int) : Binary64 :=
  let places : Int := (Nat.toDigits 10 digits).length + exponent
  if digits = 0 then zero negative
  else if 310 < places then infinite negative
  else if places < -330 then zero negative
  else
    let (up, down) := power 10 exponent
    ofFraction negative (digits * up) down

/-- Whether a number is zero, of either sign. -/
def isZero : Binary64 → Bool
  | finite _ 0 _ => true
  | _ => false

end Binary64

end PromptFill
