import InlineReport.Data.Instant
import InlineReport.Failure
import InlineReport.Number.Reading

/-!
# Values

What a settings file may hold for a key: a scalar, or a **container**: a list, a table, a set,
or a pair of an ordered table. A container may be held in several places, and a list or a table
may contain itself. So the containers lie in a `Store`, each at its number, and a value is a
scalar or refers to a container by its number.

Values are compared as keys (`Value.sameKey`), asked whether they count as nothing, and read as
fractions.
-/

namespace InlineReport

/-- A value of a settings file. -/
inductive Value
  | null
  | bool (b : Bool)
  | int (n : Int)
  /-- A fraction. The fraction that is no number is not equal to itself, so `origin` tells such
  fractions apart that have been made at different places. -/
  | fraction (x : Binary) (origin : Option Nat)
  | string (s : WideText)
  | bytes (bs : List UInt8)
  | date (d : Date)
  | instant (t : Instant)
  /-- The container of a number. -/
  | container (number : Nat)
deriving DecidableEq, Repr

/-- What is in a container. -/
inductive Container
  | list (items : List Value)
  | table (entries : List (Value × Value))
  | set (items : List Value)
  | pair (first second : Value)
deriving DecidableEq, Repr

/-- The containers that values refer to, at their numbers. -/
abbrev Store := Array Container

namespace Store

/-- The container of a number; the empty list if there is none. -/
def at' (store : Store) (number : Nat) : Container := store[number]?.getD (.list [])

end Store

namespace Container

/-- Whether nothing is in a container. -/
def isEmpty : Container → Bool
  | list items | set items => items.isEmpty
  | table entries => entries.isEmpty
  | pair .. => false

end Container

namespace Value

/-! ### Truth -/

/-- Whether a value counts as nothing: null, false, a zero, or empty. -/
def isNothing (store : Store) : Value → Bool
  | null => true
  | bool b => !b
  | int n => n == 0
  | fraction x _ => x.isZero
  | string s => s.isEmpty
  | bytes bs => bs.isEmpty
  | container n => (store.at' n).isEmpty
  | date _ | instant _ => false

/-! ### Keys -/

/-- Whether a value can be a key. -/
def isKey : Value → Bool
  | container _ => false
  | _ => true

/-- Whether two keys are the same. Numbers are the same if they are equal, whatever their
kind, and truth values count as zero and one. -/
def sameKey : Value → Value → Bool
  | null, null => true
  | bool a, bool b => a == b
  | bool a, int n | int n, bool a => n == a.toNat
  | bool a, fraction x _ | fraction x _, bool a => x.equalsInt a.toNat
  | int a, int b => a == b
  | int n, fraction x _ | fraction x _, int n => x.equalsInt n
  | fraction .nan a, fraction .nan b => a == b
  | fraction x _, fraction y _ => x.same y
  | string a, string b => a == b
  | bytes a, bytes b => a == b
  | date a, date b => a == b
  | instant a, instant b => a.same b
  | _, _ => false

/-! ### Containers -/

/-- The items of a list. -/
def items? (store : Store) : Value → Option (List Value)
  | container n =>
    match store.at' n with
    | .list items => some items
    | _ => none
  | _ => none

/-- The entries of a table. -/
def entries? (store : Store) : Value → Option (List (Value × Value))
  | container n =>
    match store.at' n with
    | .table entries => some entries
    | _ => none
  | _ => none

/-! ### Fractions -/

/-- The text of bytes of ASCII. -/
def asciiText? (bs : List UInt8) : Option Text :=
  if bs.all (· < 128) then some (bs.map fun b => Char.ofNat b.toNat) else none

/-- The fraction that a value stands for, if any. A whole number beyond the range of
fractions is an overrun. -/
def fraction? : Value → Except Failure (Option Binary)
  | bool b => .ok (Binary.ofInt? b.toNat)
  | int n =>
    match Binary.ofInt? n with
    | some x => .ok (some x)
    | none => .error Overrun.fraction
  | fraction x _ => .ok (some x)
  | string s => .ok ((WideText.text? s).bind Reading.fraction?)
  | bytes bs => .ok ((asciiText? bs).bind Reading.fraction?)
  | _ => .ok none

end Value

end InlineReport
