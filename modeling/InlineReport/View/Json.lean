import InlineReport.Text.Hex
import InlineReport.Text.Basic

/-!
# JSON

JSON values whose objects keep the order of their members, and their text: two blanks of
indentation for each level, and every character beyond the printable ones of ASCII
written as an escape. A character beyond the first 65536 is written as the two halves of
its UTF-16 form.
-/

namespace InlineReport

/-- A JSON value. -/
inductive Json
  | null
  | bool (b : Bool)
  | num (n : Int)
  | str (s : String)
  | arr (items : List Json)
  | obj (members : List (String × Json))

namespace Json

/-! ### Strings -/

/-- The escape of a UTF-16 unit. -/
def unitEscape (n : Nat) : Text := '\\' :: 'u' :: Hex.lower 4 n

/-- A character as it is written in a JSON string. -/
def escape (c : Char) : Text :=
  if c = '"' then ['\\', '"']
  else if c = '\\' then ['\\', '\\']
  else if c = '\n' then ['\\', 'n']
  else if c = '\r' then ['\\', 'r']
  else if c = '\t' then ['\\', 't']
  else if c = '\x08' then ['\\', 'b']
  else if c = '\x0c' then ['\\', 'f']
  else if ' ' ≤ c ∧ c ≤ '~' then [c]
  else if c.toNat < 0x10000 then unitEscape c.toNat
  else
    let n := c.toNat - 0x10000
    unitEscape (0xD800 + n / 0x400) ++ unitEscape (0xDC00 + n % 0x400)

/-- A JSON string. -/
def string (s : String) : Text := '"' :: s.toList.flatMap escape ++ ['"']

/-! ### Values -/

/-- The beginning of a line that is indented to a level. -/
def newLine (level : Nat) : Text := '\n' :: List.replicate (2 * level) ' '

mutual

/-- The text of a value that stands at an indentation level, in front of other text. -/
def renderAt (level : Nat) : Json → (rest : Text) → Text
  | null, rest => "null".toList ++ rest
  | bool b, rest => (if b then "true".toList else "false".toList) ++ rest
  | num n, rest => (toString n).toList ++ rest
  | str s, rest => string s ++ rest
  | arr [], rest => '[' :: ']' :: rest
  | arr (item :: items), rest =>
    '[' :: newLine (level + 1) ++ renderAt (level + 1) item
      (renderItems (level + 1) items (newLine level ++ ']' :: rest))
  | obj [], rest => '\x7b' :: '\x7d' :: rest
  | obj ((name, value) :: members), rest =>
    '\x7b' :: newLine (level + 1) ++ string name ++ ": ".toList ++ renderAt (level + 1) value
      (renderMembers (level + 1) members (newLine level ++ '\x7d' :: rest))

/-- The further items of an array, in front of other text. -/
def renderItems (level : Nat) : List Json → (rest : Text) → Text
  | [], rest => rest
  | item :: items, rest =>
    ',' :: newLine level ++ renderAt level item (renderItems level items rest)

/-- The further members of an object, in front of other text. -/
def renderMembers (level : Nat) : List (String × Json) → (rest : Text) → Text
  | [], rest => rest
  | (name, value) :: members, rest =>
    ',' :: newLine level ++ string name ++ ": ".toList ++ renderAt level value
      (renderMembers level members rest)

end

/-- The text of a value. -/
def render (value : Json) : Text := renderAt 0 value []

end Json

end InlineReport
