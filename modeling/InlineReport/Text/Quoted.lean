import InlineReport.Text.Hex
import InlineReport.Text.Printable

/-!
# Quoted texts

The form in which a piece of a trace is shown in an error message: between single
quotes, or between double quotes if it holds a single quote and no double one. The
quote in use and the backslash have a backslash in front, tab, newline and carriage
return their letters, and any other character that is not printable is shown by its
number, in the shortest of the three lengths that holds it.
-/

namespace InlineReport

namespace Quoted

/-- The quote that is put around a text. -/
def mark (s : Text) : Char := if s.contains '\'' && !s.contains '"' then '"' else '\''

/-- A character by its number: two, four or eight hexadecimal digits. -/
def byNumber (c : Char) : Text :=
  if c.toNat ≤ 0xFF then '\\' :: 'x' :: Hex.lower 2 c.toNat
  else if c.toNat ≤ 0xFFFF then '\\' :: 'u' :: Hex.lower 4 c.toNat
  else '\\' :: 'U' :: Hex.lower 8 c.toNat

/-- A character as it is shown between the quotes `mark`. -/
def escape (mark c : Char) : Text :=
  if c = mark ∨ c = '\\' then ['\\', c]
  else if c = '\t' then ['\\', 't']
  else if c = '\n' then ['\\', 'n']
  else if c = '\r' then ['\\', 'r']
  else if isPrintable c then [c]
  else byNumber c

end Quoted

/-- A text between quotes, with all that could be mistaken written as an escape. -/
def quoted (s : Text) : Text :=
  Quoted.mark s :: s.flatMap (Quoted.escape (Quoted.mark s)) ++ [Quoted.mark s]

example : quoted "it's\n".toList = "\"it's\\n\"".toList := by decide +kernel

end InlineReport
