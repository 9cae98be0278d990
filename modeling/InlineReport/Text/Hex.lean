import InlineReport.Text.Basic

/-!
# Hexadecimal digits

The number of a character as an escape sequence writes it: a fixed number of
hexadecimal digits, filled up with zeros at the front.
-/

namespace InlineReport

namespace Hex

/-- A number in at least `width` hexadecimal digits, the letters small. -/
def lower (width n : Nat) : Text := (Nat.toDigits 16 n).leftpad width '0'

/-- A number in at least `width` hexadecimal digits, the letters large. -/
def upper (width n : Nat) : Text := (lower width n).map Char.toUpper

/-- The value of a hexadecimal digit, large or small. -/
def value? (c : Char) : Option Nat :=
  if '0' ≤ c ∧ c ≤ '9' then some (c.toNat - '0'.toNat)
  else if 'a' ≤ c ∧ c ≤ 'f' then some (c.toNat - 'a'.toNat + 10)
  else if 'A' ≤ c ∧ c ≤ 'F' then some (c.toNat - 'A'.toNat + 10)
  else none

/-- The number that a text of hexadecimal digits writes. -/
def read? (s : Text) : Option Nat :=
  s.foldlM (fun n c => (value? c).map (16 * n + ·)) 0

end Hex

end InlineReport
