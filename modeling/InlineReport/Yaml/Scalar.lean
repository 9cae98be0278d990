import InlineReport.Data.Base64
import InlineReport.Data.Value

/-!
# What a scalar means

A scalar has a kind, and a value of that kind. The kind is named by a tag, or else it
shows in the spelling if the scalar is plain (`ScalarKind.ofPlain`): the words for truth
values, whole numbers with a base or in sixties, fractions, dates and instants, the two keys
`<<` and `=` with a meaning of their own, and three marks that are reserved. Any other
spelling, and any quoted one, is a string.

A tag may give a kind to a scalar that does not have its spelling; then there is no value.
-/

namespace InlineReport

namespace Yaml

/-- What a scalar means. -/
inductive ScalarKind
  | null
  | bool
  | int
  | fraction
  | instant
  | bytes
  | string
  /-- The key whose value is merged into its mapping. -/
  | merge
  /-- The key whose value stands for its whole mapping. -/
  | whole
  /-- A mark that is not free to mean anything else. -/
  | reserved
deriving DecidableEq, Repr

/-! ### Pieces of spellings -/

/-- Whether a text is not empty and of a class. -/
def isRunOf (p : Char → Bool) (s : Text) : Bool := !s.isEmpty && s.all p

/-- A digit or an underscore. -/
def isDigitMark (c : Char) : Bool := isAsciiDigit c || c = '_'

/-- A digit that is followed by digits and underscores. -/
def isNumeral (s : Text) : Bool := s.head?.any isAsciiDigit && s.all isDigitMark

/-- The sixties behind a colon: one digit, or two of which the first is below six. -/
def isSixties : Text → Bool
  | [c] => isAsciiDigit c
  | [c, d] => '0' ≤ c && c ≤ '5' && isAsciiDigit d
  | _ => false

/-- A text with the first sign left out. -/
def dropSign (s : Text) : Text := (Reading.sign s).2

/-- Nothing, or the letter of an exponent with a sign and digits. -/
def isExponent : Text → Bool
  | [] => true
  | e :: sign :: s =>
    (e = 'e' || e = 'E') && (sign = '+' || sign = '-') && isRunOf isAsciiDigit s
  | _ => false

namespace Spelling

/-- The spellings of the truth values. -/
def trueWords : List String := ["yes", "Yes", "YES", "true", "True", "TRUE", "on", "On", "ON"]

/-- The spellings of the truth values. -/
def falseWords : List String := ["no", "No", "NO", "false", "False", "FALSE", "off", "Off", "OFF"]

/-- The spellings of nothing. -/
def nullWords : List String := ["~", "null", "Null", "NULL"]

/-- Whether a text is spelt like one of several words. -/
def isOneOf (words : List String) (s : Text) : Bool := words.any (·.toList == s)

/-- Whether a text is spelt like a whole number. -/
def isInt (s : Text) : Bool :=
  let s := dropSign s
  match s with
  | ['0'] => true
  | '0' :: 'b' :: digits => isRunOf (fun c => c = '0' || c = '1' || c = '_') digits
  | '0' :: 'x' :: digits => isRunOf (fun c => (Hex.value? c).isSome || c = '_') digits
  | '0' :: digits => isRunOf (fun c => ('0' ≤ c && c ≤ '7') || c = '_') digits
  | _ =>
    match Text.split [':'] s with
    | [] => false
    | first :: sixties => isNumeral first && sixties.all isSixties

/-- Whether a text is spelt like a fraction in digits: a numeral, perhaps with sixties, a
point, and perhaps an exponent. -/
def isPointed (s : Text) : Bool :=
  match Text.upTo Text.anywhere (Text.cut? ['.']) s with
  | none => false
  | some (front, rest) =>
    let (part, power) := (rest.takeWhile isDigitMark, rest.dropWhile isDigitMark)
    if front.isEmpty then isNumeral part && isExponent power
    else
      match Text.split [':'] (dropSign front) with
      | [] => false
      | first :: sixties =>
        isNumeral first && sixties.all isSixties &&
          (if sixties.isEmpty then isExponent power else power.isEmpty)

/-- Whether a text is spelt like a fraction. -/
def isFraction (s : Text) : Bool :=
  isOneOf [".nan", ".NaN", ".NAN"] s || isOneOf [".inf", ".Inf", ".INF"] (dropSign s) || isPointed s

end Spelling

/-! ### Dates and instants -/

/-- The time of day of a spelt instant. -/
structure ClockTime where
  hour : Nat
  minute : Nat
  second : Nat
  microsecond : Nat
  offset : Option Int

/-- A spelt date or instant. -/
structure Timestamp where
  date : Date
  /-- Whether the month and the day have two digits each. -/
  isFull : Bool
  time : Option ClockTime

namespace Timestamp

/-- A run of at least `least` and at most `most` digits, and the rest. -/
def digits? (least most : Nat) (s : Text) : Option (Text × Text) :=
  let run := s.takeWhile isAsciiDigit
  if least ≤ run.length ∧ run.length ≤ most then some (run, s.dropWhile isAsciiDigit) else none

/-- The millionths of a second of a decimal part. -/
def microseconds (part : Text) : Nat := Digit.value ((part.take 6).rightpad 6 '0')

/-- Reads an offset from universal time, in seconds. -/
def offset? : Text → Option Int
  | ['Z'] => some 0
  | sign :: s => do
    guard (sign = '+' || sign = '-')
    let (hour, s) ← digits? 1 2 s
    let minute ← match s with
      | [] => some []
      | c :: s => do
        guard (c = ':')
        let (minute, s) ← digits? 2 2 s
        if s.isEmpty then some minute else none
    return Binary.signed (sign = '-') (Digit.value hour * 3600 + Digit.value minute * 60)
  | [] => none

/-- Reads the offset at the end of an instant, which may be left out together with the
blanks before it. -/
def zone? (s : Text) : Option (Option Int) :=
  if s.isEmpty then some none else (offset? (s.dropWhile fun c => c = ' ' || c = '\t')).map some

/-- Reads a time of day. -/
def time? (s : Text) : Option ClockTime := do
  let (hour, s) ← digits? 1 2 s
  let s ← Text.cut? [':'] s
  let (minute, s) ← digits? 2 2 s
  let s ← Text.cut? [':'] s
  let (second, s) ← digits? 2 2 s
  let (part, s) := match s with
    | '.' :: s => (s.takeWhile isAsciiDigit, s.dropWhile isAsciiDigit)
    | s => ([], s)
  return {
    hour := Digit.value hour
    minute := Digit.value minute
    second := Digit.value second
    microsecond := microseconds part
    offset := ← zone? s }

/-- What stands between a date and a time of day: a letter, or blanks. -/
def timeStart? (s : Text) : Option Text :=
  match s with
  | [] => none
  | c :: rest =>
    if c = 'T' ∨ c = 't' then some rest
    else if c = ' ' ∨ c = '\t' then some (s.dropWhile fun c => c = ' ' || c = '\t')
    else none

/-- Reads a date or an instant. -/
def read? (s : Text) : Option Timestamp := do
  let (year, s) ← digits? 4 4 s
  let s ← Text.cut? ['-'] s
  let (month, s) ← digits? 1 2 s
  let s ← Text.cut? ['-'] s
  let (day, s) ← digits? 1 2 s
  let time ← if s.isEmpty then pure none else (time? (← timeStart? s)).map some
  return {
    date := { year := Digit.value year, month := Digit.value month, day := Digit.value day }
    isFull := month.length = 2 && day.length = 2
    time }

/-- The value of a timestamp that exists in the calendar. -/
def value? (t : Timestamp) : Option Value :=
  match t.time with
  | none => if t.date.valid then some (.date t.date) else none
  | some c =>
    let instant : Instant :=
      { date := t.date, hour := c.hour, minute := c.minute, second := c.second
        microsecond := c.microsecond, offset := c.offset }
    if instant.valid then some (.instant instant) else none

end Timestamp

namespace ScalarKind

/-! ### Kinds -/

/-- The kind of a word, which is not empty. -/
def ofWord (s : Text) : ScalarKind :=
  if Spelling.isOneOf Spelling.trueWords s || Spelling.isOneOf Spelling.falseWords s then bool
  else if Spelling.isFraction s then fraction
  else if Spelling.isInt s then int
  else if s = "<<".toList then merge
  else if Spelling.isOneOf Spelling.nullWords s then null
  else if (Timestamp.read? s).any fun t => t.time.isSome || t.isFull then instant
  else if s = ['='] then whole
  else if s = ['!'] ∨ s = ['&'] ∨ s = ['*'] then reserved
  else string

/-- The kind of a plain scalar. A newline at its end does not count. -/
def ofPlain (s : Text) : ScalarKind :=
  if s.isEmpty then null
  else if s.getLast? = some '\n' then ofWord s.dropLast
  else ofWord s

/-- The kind of a plain scalar that may hold surrogates. -/
def ofPlainWide (s : WideText) : ScalarKind := ((WideText.text? s).map ofPlain).getD string

/-! ### Values -/

/-- A text without underscores. -/
def dropMarks (s : Text) : Text := s.filter (· != '_')

/-- The truth value of a word in letters of any size. -/
def bool? (s : Text) : Option Bool :=
  let s := s.map Char.toLower
  if Spelling.isOneOf Spelling.trueWords s then some true
  else if Spelling.isOneOf Spelling.falseWords s then some false
  else none

/-- The whole number of a text without its sign. -/
def unsignedInt? (s : Text) : Option Int :=
  match s with
  | [] => none
  | ['0'] => some 0
  | '0' :: 'b' :: digits => Reading.whole? 2 digits
  | '0' :: 'x' :: digits => Reading.whole? 16 digits
  | '0' :: _ => Reading.whole? 8 s
  | _ =>
    (Text.split [':'] s).foldlM
      (fun (n : Int) part => (Reading.whole? 10 part).map (60 * n + ·)) 0

/-- The whole number of a text. -/
def int? (s : Text) : Option Int :=
  let (negative, s) := Reading.sign (dropMarks s)
  (unsignedInt? s).map fun n => if negative then -n else n

/-- The sum of fractions, each times a power of sixty, which starts at `base`. -/
def sixties? (base : Nat) (sum : Binary) : List Text → Option Binary
  | [] => some sum
  | part :: parts => do
    let digit ← Reading.fraction? part
    let factor ← Binary.ofInt? base
    sixties? (60 * base) (sum.add (digit.mul factor)) parts

/-- The fraction of a text in small letters without its sign. -/
def unsignedFraction? (s : Text) : Option Binary :=
  if s.isEmpty then none
  else if s = ".inf".toList then some (.infinite false)
  else if s = ".nan".toList then some .nan
  else if s.contains ':' then sixties? 1 (Binary.zero false) (Text.split [':'] s).reverse
  else Reading.fraction? s

/-- The fraction of a text. -/
def fraction? (s : Text) : Option Binary :=
  let (negative, s) := Reading.sign ((dropMarks s).map Char.toLower)
  (unsignedFraction? s).map fun x => if negative then x.neg else x

/-- The fraction of a text at a place. What is no number is made there, unless it is spelt with
a point: such a spelling names the same fraction everywhere. -/
def fractionValue? (place : Nat) (s : Text) : Option Value :=
  let isNamed := Spelling.isOneOf [".nan"] (dropSign ((dropMarks s).map Char.toLower))
  (fraction? s).map fun x => .fraction x (if x = .nan && !isNamed then some place else none)

/-- The value of a text of a kind at a place. The keys with a meaning of their own have none. -/
def value? (kind : ScalarKind) (place : Nat) (s : WideText) : Option Value :=
  match kind with
  | null => some .null
  | string => some (.string s)
  | bool => do return .bool (← bool? (← WideText.text? s))
  | int => do return .int (← int? (← WideText.text? s))
  | fraction => do fractionValue? place (← WideText.text? s)
  | instant => do
    let s ← WideText.text? s
    (← Timestamp.read? (if s.getLast? = some '\n' then s.dropLast else s)).value?
  | bytes => do
    let s ← WideText.text? s
    guard (s.all (·.toNat < 128))
    return .bytes (← Base64.decode? s)
  | merge | whole | reserved => none

end ScalarKind

end Yaml

end InlineReport
