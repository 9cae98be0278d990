import InlineReport.Data.Value
import InlineReport.Limits
import InlineReport.Number.Shortest

/-!
# Values as texts

Every value has a **text**, which is what a setting that expects a text makes of it, and
a **form**, which is its text inside a container. They differ for strings, which are
quoted in a container, and for dates.

A list, a table or a pair that stands inside itself is shown as three dots in its brackets
there. A value has neither form nor text if it holds a whole number of too many digits, or
containers that are nested too deeply.
-/

namespace InlineReport

namespace Value

/-! ### Scalars -/

/-- A whole number, if it has not too many digits. -/
def intText (n : Int) : Except Failure Text :=
  let digits := Nat.toDigits 10 n.natAbs
  if digits.length ≤ Digit.longestRun then .ok (if n < 0 then '-' :: digits else digits)
  else .error Overrun.digits

/-- A byte inside quotes. -/
def byteText (mark : Char) (b : UInt8) : Text :=
  let c := Char.ofNat b.toNat
  if c = mark ∨ c = '\\' then ['\\', c]
  else if c = '\t' then ['\\', 't']
  else if c = '\n' then ['\\', 'n']
  else if c = '\r' then ['\\', 'r']
  else if ' ' ≤ c ∧ c ≤ '~' then [c]
  else '\\' :: 'x' :: Hex.lower 2 b.toNat

/-- Bytes between quotes. -/
def bytesText (bs : List UInt8) : Text :=
  let mark := Quoted.mark (bs.map fun b => Char.ofNat b.toNat)
  'b' :: mark :: bs.flatMap (byteText mark) ++ [mark]

/-- A truth value. -/
def boolText (b : Bool) : Text := if b then "True".toList else "False".toList

end Value

/-! ### Containers -/

/-- The brackets of a container. -/
structure Brackets where
  opening : String
  closing : String

namespace Brackets

/-- Texts in brackets, with a comma and a blank between them. -/
def around (b : Brackets) (items : List Text) : Text :=
  b.opening.toList ++ ", ".toList.intercalate items ++ b.closing.toList

end Brackets

/-- The brackets of a container. -/
def Container.brackets : Container → Brackets
  | list _ => ⟨"[", "]"⟩
  | table _ => ⟨"\x7b", "\x7d"⟩
  | set [] => ⟨"set(", ")"⟩
  | set (_ :: _) => ⟨"\x7b", "\x7d"⟩
  | pair .. => ⟨"(", ")"⟩

namespace Value

/-- The form of a value inside the containers of the given numbers. -/
def formIn (store : Store) : (depth : Nat) → (inside : List Nat) → Value → Except Failure Text
  | _, _, null => .ok "None".toList
  | _, _, bool b => .ok (boolText b)
  | _, _, int n => intText n
  | _, _, fraction x _ => .ok x.text
  | _, _, string s => .ok (WideText.quoted s)
  | _, _, bytes bs => .ok (bytesText bs)
  | _, _, date d => .ok d.detail
  | _, _, instant t => .ok t.detail
  | 0, _, container _ => .error Overrun.nesting
  | depth + 1, inside, container n =>
    let c := store.at' n
    if inside.contains n then .ok (c.brackets.around ["...".toList])
    else do
      let form := formIn store depth (n :: inside)
      let items ← match c with
        | .list items | .set items => items.mapM form
        | .table entries =>
          entries.mapM fun (key, value) => return (← form key) ++ ": ".toList ++ (← form value)
        | .pair first second => [first, second].mapM form
      return c.brackets.around items

/-- The text of a value. -/
def text (lim : Limits) (store : Store) : Value → Except Failure WideText
  | string s => .ok s
  | date d => .ok d.text.wide
  | instant t => .ok t.text.wide
  | v => (formIn store lim.formDepth [] v).map Text.wide

end Value

end InlineReport
