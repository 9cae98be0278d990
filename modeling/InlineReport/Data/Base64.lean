import InlineReport.Text.Basic

/-!
# Bytes as letters

Bytes may be written as characters of an alphabet of 64, six bits each. What is not of
the alphabet is passed over; equals signs stand for the bits that are missing in the last
group of four characters, and end it. A group that is neither full nor ended is refused.
-/

namespace InlineReport

namespace Base64

/-- The six bits of a character of the alphabet. -/
def value? (c : Char) : Option Nat :=
  if 'A' ≤ c ∧ c ≤ 'Z' then some (c.toNat - 'A'.toNat)
  else if 'a' ≤ c ∧ c ≤ 'z' then some (c.toNat - 'a'.toNat + 26)
  else if '0' ≤ c ∧ c ≤ '9' then some (c.toNat - '0'.toNat + 52)
  else if c = '+' then some 62
  else if c = '/' then some 63
  else none

/-- The bytes of a text behind `width` bits of the value `bits` that do not make up a byte
yet, and behind `pads` equals signs. -/
def decodeFrom (width bits pads : Nat) : Text → Option (List UInt8)
  | [] => if width = 0 then some [] else none
  | c :: s =>
    if c = '=' then
      if width = 2 ∨ (width = 4 ∧ pads ≥ 1) then some []
      else decodeFrom width bits (if width = 4 then pads + 1 else pads) s
    else
      match value? c with
      | none => decodeFrom width bits pads s
      | some v =>
        if width = 0 then decodeFrom 6 v 0 s
        else
          let spare := width - 2
          let all := 64 * bits + v
          (decodeFrom spare (all % (1 <<< spare)) 0 s).map (UInt8.ofNat (all >>> spare) :: ·)

/-- The bytes that a text writes. -/
def decode? (s : Text) : Option (List UInt8) := decodeFrom 0 0 0 s

example : decode? "SGk=".toList = some [72, 105] := by decide +kernel

example : decode? "SGk".toList = none := by decide +kernel

end Base64

end InlineReport
