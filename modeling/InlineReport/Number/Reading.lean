import InlineReport.Number.Binary
import InlineReport.Text.Blank
import InlineReport.Text.Digit

/-!
# Reading numbers

What a person may write for a number: white space around it, a sign, digits of any
script, and underscores between two digits. A fraction has a point, an exponent, or is
one of the words for infinity and for no number.
-/

namespace InlineReport

namespace Reading

open Text

/-- The white space that may stand around a fraction: all but the information
separators. -/
def isPadding (c : Char) : Bool := isBlank c && !('\x1c' ≤ c && c ≤ '\x1f')

/-- A text without the padding at its ends, and with digits of all scripts as `0` to
`9`. -/
def plain (s : Text) : Text := (trim isPadding s).map Digit.toAscii

/-- A sign that may stand at the beginning of a text, and the rest. -/
def sign (s : Text) : Bool × Text :=
  match s with
  | '-' :: s => (true, s)
  | '+' :: s => (false, s)
  | s => (false, s)

/-- A run of digits in which single underscores may stand between two digits, with the
underscores left out, and the rest. -/
def grouped : Text → Text × Text
  | c :: '_' :: d :: s =>
    if !isAsciiDigit c then ([], c :: '_' :: d :: s)
    else if !isAsciiDigit d then ([c], '_' :: d :: s)
    else
      let (more, rest) := grouped (d :: s)
      (c :: more, rest)
  | c :: s =>
    if !isAsciiDigit c then ([], c :: s)
    else
      let (more, rest) := grouped s
      (c :: more, rest)
  | [] => ([], [])

/-- The exponent at the end of a number, zero if there is none. -/
def exponent? : Text → Option Int
  | [] => some 0
  | c :: s =>
    if c = 'e' ∨ c = 'E' then
      let (negative, s) := sign s
      let (digits, rest) := grouped s
      if digits.isEmpty ∨ !rest.isEmpty then none
      else some (Binary.signed negative (Digit.value digits))
    else none

/-- A fraction without its sign. -/
def unsigned? (negative : Bool) (s : Text) : Option Binary :=
  let word := s.map Char.toLower
  if word = "inf".toList ∨ word = "infinity".toList then some (.infinite negative)
  else if word = "nan".toList then some .nan
  else do
    let (whole, s) := grouped s
    let (part, s) := match s with
      | '.' :: s => grouped s
      | s => ([], s)
    if whole.isEmpty ∧ part.isEmpty then none
    let e ← exponent? s
    return .ofDecimal negative (Digit.value (whole ++ part)) (e - part.length)

/-- The fraction that a text writes. -/
def fraction? (s : Text) : Option Binary :=
  let (negative, s) := sign (plain s)
  unsigned? negative s

/-! ### Whole numbers of a base -/

/-- The letter that announces a base behind a zero. -/
def baseLetter? (base : Nat) : Option Char :=
  if base = 2 then some 'b' else if base = 8 then some 'o' else if base = 16 then some 'x' else none

/-- The value of a digit in a base up to 36. -/
def digit? (base : Nat) (c : Char) : Option Nat :=
  let value :=
    if isAsciiDigit c then c.toNat - '0'.toNat
    else if 'a' ≤ c.toLower ∧ c.toLower ≤ 'z' then c.toLower.toNat - 'a'.toNat + 10
    else base
  if value < base then some value else none

/-- The number that digits of a base write. -/
def digits? (base : Nat) (s : Text) : Option Nat :=
  if s.isEmpty then none else s.foldlM (fun n c => (digit? base c).map (base * n + ·)) 0

/-- A text without the announcement of its base. -/
def dropBase (base : Nat) (s : Text) : Text :=
  match s, baseLetter? base with
  | '0' :: c :: rest, some letter => if c.toLower = letter then rest else s
  | _, _ => s

/-- The whole number that a text without underscores writes in a base. Numbers of too
many digits are read only where the base is a power of two. -/
def whole? (base : Nat) (s : Text) : Option Int := do
  let (negative, s) := sign (plain s)
  let s := dropBase base s
  if base = 10 ∧ s.length > Digit.longestRun then none
  else return Binary.signed negative (← digits? base s)

end Reading

end InlineReport
