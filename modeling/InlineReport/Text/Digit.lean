import InlineReport.Text.Basic
import InlineReport.Text.CharClass

/-!
# Decimal digits

A number in a trace is a run of decimal digits of any script: the digits of a script
stand side by side in the order of their values, so each script is given by its zero.
`Digit.value` is the number that a run of digits writes.

Runs of more than `Digit.longestRun` digits are not read as numbers; a scanner that
meets one gives up.
-/

namespace InlineReport

namespace Digit

/-- The code points of the zeros of all scripts that write decimal numbers. -/
def zeros : List Nat :=
  [0x30, 0x660, 0x6F0, 0x7C0, 0x966, 0x9E6, 0xA66, 0xAE6, 0xB66, 0xBE6, 0xC66, 0xCE6, 0xD66,
   0xDE6, 0xE50, 0xED0, 0xF20, 0x1040, 0x1090, 0x17E0, 0x1810, 0x1946, 0x19D0, 0x1A80, 0x1A90,
   0x1B50, 0x1BB0, 0x1C40, 0x1C50, 0xA620, 0xA8D0, 0xA900, 0xA9D0, 0xA9F0, 0xAA50, 0xABF0, 0xFF10,
   0x104A0, 0x10D30, 0x11066, 0x110F0, 0x11136, 0x111D0, 0x112F0, 0x11450, 0x114D0, 0x11650,
   0x116C0, 0x11730, 0x118E0, 0x11950, 0x11C50, 0x11D50, 0x11DA0, 0x16A60, 0x16AC0, 0x16B50,
   0x1D7CE, 0x1D7D8, 0x1D7E2, 0x1D7EC, 0x1D7F6, 0x1E140, 0x1E2F0, 0x1E950, 0x1FBF0]

/-- The value of a decimal digit. -/
def value? (c : Char) : Option Nat :=
  (zeros.find? fun first => first ≤ c.toNat && c.toNat < first + 10).map (c.toNat - ·)

/-- The number that a run of digits writes. -/
def value (digits : Text) : Nat :=
  digits.foldl (fun n c => 10 * n + (value? c).getD 0) 0

/-- The most digits that a number may be written with. -/
def longestRun : Nat := 4300

/-- A decimal digit as its counterpart among `0` to `9`, any other character as it is. -/
def toAscii (c : Char) : Char :=
  match value? c with
  | some d => Char.ofNat ('0'.toNat + d)
  | none => c

end Digit

/-- Whether a character is a decimal digit of some script. -/
def isDigit (c : Char) : Bool := (Digit.value? c).isSome

/-- Whether a character is one of the digits `0` to `9`. -/
def isAsciiDigit (c : Char) : Bool := '0' ≤ c && c ≤ '9'

namespace Text

/-- A run of at least one character of a class, as long as possible, and the rest. -/
def run? (p : Char → Bool) (s : Text) : Option (Text × Text) :=
  if (s.takeWhile p).isEmpty then none else some (s.takeWhile p, s.dropWhile p)

/-- A run of at least one digit, as long as possible, and the rest. -/
def digits? (s : Text) : Option (Text × Text) := run? isDigit s

theorem run?_eq_some {p : Char → Bool} {s front rest : Text} (h : run? p s = some (front, rest)) :
    s = front ++ rest ∧ front ≠ [] ∧ ∀ c ∈ front, p c := by
  unfold run? at h
  split at h
  · exact absurd h (by simp)
  · next hne =>
    simp only [Option.some.injEq, Prod.mk.injEq] at h
    obtain ⟨rfl, rfl⟩ := h
    refine ⟨List.takeWhile_append_dropWhile.symm, by simpa using hne, fun c hc => ?_⟩
    exact List.all_eq_true.mp List.all_takeWhile c hc

end Text

end InlineReport
