import InlineReport.Text.Basic

/-!
# Dates and instants

A settings file may hold a date, or an instant: a date with a time of day and perhaps an
offset from universal time. Years have four digits, and the calendar is the Gregorian
one throughout.

Both have two texts. The plain one is what a person would write; the detailed one, used
inside lists, names the parts.
-/

namespace InlineReport

/-- A date. -/
structure Date where
  year : Nat
  month : Nat
  day : Nat
deriving DecidableEq, Repr

namespace Date

/-- Whether a year has a leap day. -/
def isLeap (year : Nat) : Bool := year % 4 = 0 && (year % 100 != 0 || year % 400 = 0)

/-- The number of days of a month. -/
def monthLength (year month : Nat) : Nat :=
  if month = 2 then (if isLeap year then 29 else 28)
  else if month ∈ [4, 6, 9, 11] then 30 else 31

/-- Whether a date exists. -/
def valid (d : Date) : Bool :=
  1 ≤ d.year && d.year ≤ 9999 && 1 ≤ d.month && d.month ≤ 12 && 1 ≤ d.day &&
    d.day ≤ monthLength d.year d.month

/-- How many days a date lies behind the first day of the first year. -/
def dayNumber (d : Date) : Nat :=
  let y := d.year - 1
  365 * y + y / 4 - y / 100 + y / 400 +
    (List.range (d.month - 1)).foldl (fun n m => n + monthLength d.year (m + 1)) 0 + (d.day - 1)

end Date

/-- An instant: a date, a time of day, and an offset from universal time in seconds, if
it is known. -/
structure Instant where
  date : Date
  hour : Nat
  minute : Nat
  second : Nat
  microsecond : Nat
  offset : Option Int
deriving DecidableEq, Repr

namespace Instant

/-- The number of seconds of a day. -/
def dayLength : Nat := 86400

/-- Whether an instant exists; its offset has to be shorter than a day. -/
def valid (t : Instant) : Bool :=
  t.date.valid && t.hour < 24 && t.minute < 60 && t.second < 60 &&
    t.offset.all fun o => o.natAbs < dayLength

/-- How many microseconds an instant lies behind the beginning of the first year, in
universal time if its offset is known. -/
def microseconds (t : Instant) : Int :=
  let seconds : Int := t.date.dayNumber * dayLength + t.hour * 3600 + t.minute * 60 + t.second
  (seconds - t.offset.getD 0) * 1000000 + t.microsecond

/-- Whether two instants are the same: both with an offset, or both without. -/
def same (s t : Instant) : Bool :=
  s.offset.isSome == t.offset.isSome && s.microseconds == t.microseconds

end Instant

/-! ### Texts -/

/-- A number filled up with zeros to a width. -/
def padded (width n : Nat) : Text := (Nat.toDigits 10 n).leftpad width '0'

namespace Date

/-- The plain text of a date. -/
def text (d : Date) : Text := padded 4 d.year ++ '-' :: padded 2 d.month ++ '-' :: padded 2 d.day

/-- Numbers with commas between them. -/
def listed (ns : List Nat) : String := ", ".intercalate (ns.map toString)

/-- The detailed text of a date. -/
def detail (d : Date) : Text :=
  let fields := listed [d.year, d.month, d.day]
  s!"datetime.date({fields})".toList

end Date

namespace Instant

/-- The plain text of an offset. -/
def offsetText (offset : Int) : Text :=
  let n := offset.natAbs
  (if offset < 0 then '-' else '+') :: padded 2 (n / 3600) ++ ':' :: padded 2 (n / 60 % 60)

/-- The plain text of an instant. -/
def text (t : Instant) : Text :=
  t.date.text ++ ' ' :: padded 2 t.hour ++ ':' :: padded 2 t.minute ++ ':' :: padded 2 t.second ++
    (if t.microsecond = 0 then [] else '.' :: padded 6 t.microsecond) ++
    (t.offset.map offsetText).getD []

/-- The detailed text of an offset, as days and seconds. -/
def offsetDetail (offset : Int) : String :=
  if offset = 0 then "datetime.timezone.utc"
  else
    let days := offset.fdiv dayLength
    let seconds := offset.fmod dayLength
    let parts := (if days = 0 then [] else [s!"days={days}"]) ++
      (if seconds = 0 then [] else [s!"seconds={seconds}"])
    let fields := ", ".intercalate parts
    s!"datetime.timezone(datetime.timedelta({fields}))"

/-- The detailed text of an instant; a second and a microsecond of zero are left out from
the end. -/
def detail (t : Instant) : Text :=
  let fine :=
    if t.microsecond ≠ 0 then [t.second, t.microsecond]
    else if t.second ≠ 0 then [t.second] else []
  let fields := Date.listed ([t.date.year, t.date.month, t.date.day, t.hour, t.minute] ++ fine)
  let zone := (t.offset.map fun o => ", tzinfo=" ++ offsetDetail o).getD ""
  s!"datetime.datetime({fields}{zone})".toList

end Instant

end InlineReport
