/-
  Colours with opacity, and how a style sheet writes them.

  A colour is a number 0xAARRGGBB, of any size and sign: its four channels are the lowest
  four bytes, in two's complement.  The opacity is written in hundredths, the nearest to
  `a / 255` of the byte `a`, without zeros at the end but with at least one decimal place.
-/
import PromptFill.Text.Basic

namespace PromptFill.Argb

/-- The byte of a colour that begins at the given bit. -/
def channel (bit : Nat) (argb : Int) : Nat := ((argb >>> bit) % 256).toNat

/-- The nearest hundredth of `a / 255`; there are no ties. -/
def hundredths (a : Nat) : Nat := (200 * a + 255) / 510

/-- A number of hundredths, as a decimal fraction. -/
def fraction (h : Nat) : Text :=
  Text.decimal (h / 100) ++ '.' ::
    if h % 10 = 0 then Text.decimal (h % 100 / 10) else Text.zeroFill 2 (Text.decimal (h % 100))

/-- A colour in a style sheet. -/
def css (argb : Int) : Text :=
  "rgba(".toList ++ Text.decimal (channel 16 argb) ++ ", ".toList ++
    Text.decimal (channel 8 argb) ++ ", ".toList ++ Text.decimal (channel 0 argb) ++
    ", ".toList ++ fraction (hundredths (channel 24 argb)) ++ ")".toList

end PromptFill.Argb
