import InlineReport.Number.Shortest
import InlineReport.Yaml.Cursor
import InlineReport.Yaml.Scalar

/-!
# Writing a scalar

A string is written in the first of three styles that gives it back when it is read: plainly,
between single quotes, or between double quotes. A plain spelling must not mean something
else, and must not look like the beginning of anything but a scalar; between single quotes
all printable characters of ASCII and newlines can stand, unless a blank stands beside a
newline; between double quotes the rest is written as escapes.

A line that gets longer than `Writer.width` goes on in a new line at the next single blank.
-/

namespace InlineReport

namespace Yaml

namespace Writer

/-- The column behind which a line is broken. -/
def width : Nat := 80

/-- How far the further lines of a scalar are indented. -/
def indent : Nat := 2

/-- A new line of a scalar. -/
def newLine : Text := '\n' :: List.replicate indent ' '

/-! ### Styles -/

/-- Whether a character can stand in a string without an escape. -/
def isSimple (c : Char) : Bool := c = '\n' || (' ' ≤ c && c ≤ '~')

/-- Whether a blank stands beside a newline. -/
def hasLooseBlank (s : Text) : Bool := Text.hasPart " \n".toList s || Text.hasPart "\n ".toList s

/-- Whether a colon that ends a word, or a hash sign that begins one, follows a character. -/
def hasMark (before : Char) : Text → Bool
  | [] => false
  | c :: s => (c = ':' && endsWord s.head?) || (c = '#' && isSpace before) || hasMark c s

/-- Whether a text begins like something other than a plain scalar, or would end as one
before its end. -/
def isMarked : Text → Bool
  | [] => false
  | c :: s =>
    (Text.cut? "---".toList (c :: s)).isSome || (Text.cut? "...".toList (c :: s)).isSome ||
      "#,[]\x7b\x7d&*!|>'\"%@\x60".toList.contains c ||
      ("?:-".toList.contains c && endsWord s.head?) || hasMark c s

/-- Whether a text begins or ends with white space. -/
def hasOuterBlank (s : Text) : Bool :=
  let isOuter (c : Option Char) : Bool := c.any fun c => c = ' ' || c = '\n'
  isOuter s.head? || isOuter s.getLast?

/-- A way to write a string. -/
inductive Style
  | plain
  | single
  | double
deriving DecidableEq, Repr

/-- The style of a string. -/
def styleOf (s : Text) : Style :=
  if !s.all isSimple || hasLooseBlank s then .double
  else if ScalarKind.ofPlain s = .string && !s.contains '\n' && !hasOuterBlank s && !isMarked s then
    .plain
  else .single

/-- A code point between double quotes. -/
inductive Sign
  | plain (c : Char)
  | escape (e : Text)
deriving DecidableEq, Repr

/-! ### Lines -/

/-- What sort of piece a character belongs to: blanks, newlines, or a word. -/
def sortOf (c : Char) : Nat := if c = ' ' then 0 else if c = '\n' then 1 else 2

/-- The blanks, newlines and words of a text. -/
def pieces (s : Text) : List Text := s.splitBy fun a b => sortOf a == sortOf b

/-- Every single quote written twice. -/
def doubled (s : Text) : Text := s.flatMap fun c => if c = '\'' then ['\'', '\''] else [c]

/-- Pieces from a column on, with lines broken at single blanks between other pieces. A
newline is written as one more than it is. -/
def folded (quote : Text → Text) (isFirst : Bool) (column : Nat) : List Text → Text
  | [] => []
  | piece :: more =>
    match piece.head? with
    | some ' ' =>
      if piece.length = 1 && column > width && !isFirst && !more.isEmpty then
        newLine ++ folded quote false indent more
      else piece ++ folded quote false (column + piece.length) more
    | some '\n' => piece ++ newLine ++ folded quote false indent more
    | _ => quote piece ++ folded quote false (column + (quote piece).length) more

/-- The escape of a code point by its number. -/
def byNumber (n : Nat) : Text :=
  if n ≤ 0xFF then '\\' :: 'x' :: Hex.upper 2 n
  else if n ≤ 0xFFFF then '\\' :: 'u' :: Hex.upper 4 n
  else '\\' :: 'U' :: Hex.upper 8 n

/-- A character as it is written between double quotes. -/
def signOf (c : Char) : Sign :=
  let letters : List (Char × Char) :=
    [('\x00', '0'), ('\x07', 'a'), ('\x08', 'b'), ('\t', 't'), ('\n', 'n'), ('\x0b', 'v'),
     ('\x0c', 'f'), ('\r', 'r'), ('\x1b', 'e'), ('"', '"'), ('\\', '\\'), ('\x85', 'N'),
     ('\xa0', '_'), ('\u2028', 'L'), ('\u2029', 'P')]
  match letters.lookup c with
  | some letter => .escape ['\\', letter]
  | none => if ' ' ≤ c ∧ c ≤ '~' then .plain c else .escape (byNumber c.toNat)

/-- The signs of a text. -/
def signs (s : WideText) : List Sign :=
  s.map fun
    | .char c => signOf c
    | c => .escape (byNumber c.number)

/-- A line break between double quotes, which is escaped, and so is a blank behind it; also
the column behind it. -/
def escapedBreak (next : Option Sign) : Text × Nat :=
  if next = some (.plain ' ') then ('\\' :: newLine ++ ['\\'], indent + 1)
  else ('\\' :: newLine, indent)

/-- The signs of a double-quoted string from a column on. A line may be broken before a blank
and on either side of an escape, but not behind the last sign. -/
def escaped (isFirst afterEscape : Bool) (column : Nat) : List Sign → Text
  | [] => []
  | sign :: s =>
    let mayBreak := !isFirst && !s.isEmpty
    match sign with
    | .escape e =>
      let column := column + e.length
      if mayBreak && column > width + 1 then
        let (brk, column) := escapedBreak s.head?
        e ++ brk ++ escaped false true column s
      else e ++ escaped false true column s
    | .plain c =>
      if mayBreak && (c = ' ' || afterEscape) && column > width then
        let (brk, column) := escapedBreak (some sign)
        brk ++ c :: escaped false false (column + 1) s
      else c :: escaped false false (column + 1) s

/-- A string behind something that ends at a column. -/
def string (column : Nat) (s : WideText) : Text :=
  let double := ' ' :: '"' :: escaped true false (column + 2) (signs s) ++ ['"']
  match WideText.text? s with
  | none => double
  | some s =>
    match styleOf s with
    | .plain => ' ' :: folded id true (column + 1) (pieces s)
    | .single => ' ' :: '\'' :: folded doubled true (column + 2) (pieces s) ++ ['\'']
    | .double => double

/-- A fraction, which is spelt with a point also where its digits need none. -/
def fraction (x : Binary) : Text :=
  match x with
  | .nan => ".nan".toList
  | .infinite negative => if negative then "-.inf".toList else ".inf".toList
  | x =>
    let text := x.text
    if text.contains '.' then text
    else text.takeWhile (· != 'e') ++ (if text.contains 'e' then ".0".toList else []) ++
      text.dropWhile (· != 'e')

end Writer

end Yaml

end InlineReport
