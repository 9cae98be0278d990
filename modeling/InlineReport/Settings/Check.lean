import InlineReport.Data.Form
import InlineReport.Settings.Basic

/-!
# What is wrong with a table of settings

A table is checked as a whole, and everything that is found is told: first the keys
without a meaning, in their order, then what is wrong with the values, key by key.

Keys can only be put in order if they are of one sort (`KeySort`); with keys of several
sorts there is no answer.
-/

namespace InlineReport

/-- What may be wrong with a table of settings. -/
inductive SettingsFault
  | unknownKey (key : WideText)
  | notText (key : String)
  | notTexts (key : String)
  /-- A flag that the files of the trace are set by. -/
  | managedFlag (flag : WideText)
  | notPositive (key : String)
deriving DecidableEq, Repr

/-- The text of a fault. -/
def SettingsFault.message : SettingsFault → WideText
  | unknownKey key => wide "Unknown key: " ++ key
  | notText key => wide s!"{key} must be a non-empty string"
  | notTexts key => wide s!"{key} must be a list of strings"
  | managedFlag flag => wide "trace_flags must not set " ++ flag ++ wide " (use the *_file keys)"
  | notPositive key => wide s!"{key} must be a positive number"

/-! ### The order of keys -/

/-- The sorts of keys that have an order. -/
inductive KeySort
  | number
  | string
  | bytes
  | date
  /-- Instants without an offset. -/
  | localInstant
  /-- Instants with an offset. -/
  | instant
deriving DecidableEq, Repr

namespace Value

/-- The sort of a key. -/
def keySort? : Value → Option KeySort
  | bool _ | int _ | fraction .. => some .number
  | string _ => some .string
  | bytes _ => some .bytes
  | date _ => some .date
  | instant t => some (if t.offset.isSome then .instant else .localInstant)
  | _ => none

/-- Whether a key comes before another one of its sort. -/
def keyLess : Value → Value → Bool
  | bool a, bool b => a.toNat < b.toNat
  | bool a, int n => (a.toNat : Int) < n
  | int n, bool a => n < (a.toNat : Int)
  | int m, int n => m < n
  | bool a, fraction x _ => x.compareInt a.toNat == some .gt
  | fraction x _, bool a => x.compareInt a.toNat == some .lt
  | int n, fraction x _ => x.compareInt n == some .gt
  | fraction x _, int n => x.compareInt n == some .lt
  | fraction x _, fraction y _ => x.less y
  | string s, string t => WideText.less s t
  | bytes a, bytes b => a < b
  | date a, date b => a.dayNumber < b.dayNumber
  | instant s, instant t => s.microseconds < t.microseconds
  | _, _ => false

/-- Keys in their order. -/
def sortKeys (keys : List Value) : Except Failure (List Value) :=
  match keys with
  | first :: _ :: _ =>
    if first.keySort?.isSome && keys.all (·.keySort? == first.keySort?) then
      .ok (keys.mergeSort fun a b => !b.keyLess a)
    else .error Overrun.order
  | _ => .ok keys

end Value

namespace RawSettings

/-! ### The parts of the check -/

/-- The keys without a meaning. -/
def checkKeys (lim : Limits) (raw : RawSettings) : Except Failure (List SettingsFault) := do
  let keys ← Value.sortKeys ((raw.entries.map (·.1)).filter (!isKnown ·))
  keys.mapM fun key => return .unknownKey (← key.text lim raw.store)

/-- Whether a value is a string with something in it. -/
def isFilled : Value → Bool
  | .string s => !s.all (CodePoint.isIn isBlank)
  | _ => false

/-- Whether a value is a string. -/
def isText : Value → Bool
  | .string _ => true
  | _ => false

/-- Whether a value is a number above zero, or none that could be compared. -/
def isPositive : Value → Bool
  | .int n => 0 < n
  | .fraction x _ => !x.nonPositive
  | _ => false

/-- Checks a key whose value has to be a string. -/
def checkText (raw : RawSettings) (key : String) : List SettingsFault :=
  match raw.get? key with
  | none => []
  | some v => if isFilled v then [] else [.notText key]

/-- Checks a key whose value may be null, and otherwise has to pass a test. -/
def checkOptional (raw : RawSettings) (key : String) (test : Value → Bool) (fault : SettingsFault) :
    List SettingsFault :=
  match raw.get? key with
  | none | some .null => []
  | some v => if test v then [] else [fault]

/-- What the flags begin with that are set from other settings. -/
def managedFlags : List String :=
  ["--redirect-code-traces-to", "--trace_hydrogen_file", "--trace-hydrogen-file"]

/-- The flags among values that are set from other settings, up to the equals sign. -/
def managedIn (items : List Value) : List SettingsFault :=
  items.flatMap fun
    | .string s =>
      if managedFlags.any fun m => (WideText.cut? m.toList s).isSome then
        [.managedFlag (s.takeWhile (· != .char '='))]
      else []
    | _ => []

/-- Checks the flags. -/
def checkFlags (raw : RawSettings) (key : String) : List SettingsFault :=
  match raw.get? key with
  | none => []
  | some v =>
    match v.items? raw.store with
    | none => [.notTexts key]
    | some items => (if items.all isText then [] else [.notTexts key]) ++ managedIn items

/-- What is wrong with a table. -/
def check (lim : Limits) (raw : RawSettings) : Except Failure (List SettingsFault) := do
  let unknown ← raw.checkKeys lim
  return unknown ++ textKeys.flatMap raw.checkText ++
    raw.checkOptional "json_path" isFilled (.notText "json_path") ++
    raw.checkFlags "trace_flags" ++
    raw.checkOptional "timeout_seconds" isPositive (.notPositive "timeout_seconds")

end RawSettings

end InlineReport
