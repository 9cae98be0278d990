import InlineReport.Failure
import InlineReport.Text.Digit

/-!
# Numbers in a trace

Ids and offsets are written as runs of digits. A run beyond the longest that is read
stops the scan.
-/

namespace InlineReport

/-- The number that a run of digits writes, if the run is not too long. -/
def readNumber (digits : Text) : Except Failure Nat :=
  if digits.length ≤ Digit.longestRun then .ok (Digit.value digits) else .error Overrun.digits

theorem readNumber_of_length_le {digits : Text} (h : digits.length ≤ Digit.longestRun) :
    readNumber digits = .ok (Digit.value digits) := if_pos h

namespace Text

/-- Reads `id{p,s}` behind a closing parenthesis: the two numbers in digits, and the rest. -/
def idPair? (s : Text) : Option (Text × Text × Text) := do
  let s ← cut? ") id\x7b".toList s
  let (compileId, s) ← digits? s
  let s ← cut? [','] s
  let (secondId, s) ← digits? s
  let s ← cut? ['\x7d'] s
  return (compileId, secondId, s)

end Text

end InlineReport
