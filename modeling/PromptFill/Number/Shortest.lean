/-
  The shortest decimal text of a floating-point number.

  `shortest m q` has the fewest digits that read back as `m · 2^q`, and of those with as few
  the nearest.  It is found on the decimal grids of one digit, two digits and so on: the
  first grid with a point in the interval of the reals that round to the number decides,
  and only the two neighbours of the number on a grid can lie in it.  Seventeen digits are
  always enough.

  A text is positional if its point stands at most sixteen places behind the first digit
  and at most three zeros follow the point, and has an exponent otherwise.
-/
import PromptFill.Number.Binary64
import PromptFill.Text.Basic

namespace PromptFill.Binary64

/-- The exponent `p` with `10^p ≤ num / den < 10^(p + 1)`, for a positive fraction. -/
def decimalMagnitude (num den : Nat) : Int :=
  if den ≤ num then (Nat.toDigits 10 (num / den)).length - 1
  else -((Nat.toDigits 10 ((den - 1) / num)).length : Int)

/-- The interval of the reals that round to `m · 2^q`, in units of `2^(q - 2)`. -/
def roundingInterval (m : Nat) (q : Int) : Nat × Nat :=
  (if m = leastNormal ∧ leastExponent < q then 4 * m - 1 else 4 * m - 2, 4 * m + 2)

/-- Whether `x` lies in an interval, whose ends belong to it if `closed`. -/
def liesIn (closed : Bool) (low high x : Nat) : Bool :=
  if closed then low ≤ x && x ≤ high else low < x && x < high

/-- The point nearest to `m · 2^q` on the grid of the multiples of `10^s`, if it rounds to
    that number. -/
def onGrid? (m : Nat) (q s : Int) : Option Nat :=
  let (up, down) := power 2 (q - 2)
  let (tens, tenths) := power 10 s
  let unit := up * tenths
  let step := down * tens
  let (low, high) := roundingInterval m q
  let value := 4 * m * unit
  let below := value / step
  let hits := [below, below + 1].filter fun c =>
    liesIn (m % 2 = 0) (low * unit) (high * unit) (c * step)
  match hits with
  | [c, d] =>
    let under := 2 * (value % step)
    if under < step then some c else if step < under then some d else some (c + c % 2)
  | [c] => some c
  | _ => none

/-- The first grid with a hit among those of `n`, `n + 1`, … digits, `fuel` grids in all. -/
def searchGrids (m : Nat) (q p : Int) : (fuel : Nat) → (n : Nat) → Nat × Int
  | 0, n => ((onGrid? m q (p - n + 1)).getD 0, p - n + 1)
  | fuel + 1, n =>
    match onGrid? m q (p - n + 1) with
    | some c => (c, p - n + 1)
    | none => searchGrids m q p fuel (n + 1)

/-- The digits and the power of ten of the shortest decimal of a positive number. -/
def shortest (m : Nat) (q : Int) : Nat × Int :=
  let (up, down) := power 2 q
  searchGrids m q (decimalMagnitude (m * up) down) 16 1

/-- The greatest number of digits before the point in a positional text. -/
def mostDigitsBeforePoint : Int := 16

/-- The greatest number of zeros between point and first digit in a positional text. -/
def mostZerosAfterPoint : Int := 3

/-- A decimal with the given digits, the point standing `point` places behind the start. -/
def positional (digits : Text) (point : Int) : Text :=
  if point ≤ 0 then '0' :: '.' :: List.replicate (-point).toNat '0' ++ digits
  else if digits.length ≤ point then
    digits ++ List.replicate (point.toNat - digits.length) '0' ++ ['.', '0']
  else digits.take point.toNat ++ '.' :: digits.drop point.toNat

/-- A decimal with one digit before the point and an exponent of two digits or more. -/
def scientific (digits : Text) (exponent : Int) : Text :=
  let mantissa := match digits with
    | [] | [_] => digits
    | d :: ds => d :: '.' :: ds
  let sign := if exponent < 0 then '-' else '+'
  mantissa ++ 'e' :: sign :: Text.zeroFill 2 (Text.decimal exponent.natAbs)

/-- The text of a positive number. -/
def magnitudeText (m : Nat) (q : Int) : Text :=
  let (c, s) := shortest m q
  let all := Text.decimal c
  let point : Int := all.length + s
  let digits := (all.reverse.dropWhile (· = '0')).reverse
  if -mostZerosAfterPoint ≤ point ∧ point ≤ mostDigitsBeforePoint then positional digits point
  else scientific digits (point - 1)

/-- The text of a number that is not infinite. -/
def finiteText (negative : Bool) (m : Nat) (q : Int) : Text :=
  (if negative then ['-'] else []) ++ if m = 0 then "0.0".toList else magnitudeText m q

/-- The text of a number. -/
def text : Binary64 → Text
  | nan => "nan".toList
  | infinite negative => if negative then "-inf".toList else "inf".toList
  | finite negative m q => finiteText negative m q

end PromptFill.Binary64
