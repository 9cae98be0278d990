import InlineReport.Text.Basic

/-!
# A place in a settings text

The layout of a settings file is significant: lines, and the column at which a line
begins to hold something. A cursor is the text ahead together with how many characters
and lines lie behind it, and the column it stands at.

Moving on by a character is `Cursor.advance`; a line break makes the column zero, and a
byte order mark leaves it as it is.
-/

namespace InlineReport

namespace Yaml

/-- Whether a character breaks a line. -/
def isBreak (c : Char) : Bool :=
  c = '\n' || c = '\r' || c = '\x85' || c = '\u2028' || c = '\u2029'

/-- A blank or a tab. -/
def isSpace (c : Char) : Bool := c = ' ' || c = '\t'

/-- Whether the text ends here, or a line. -/
def endsLine (c : Option Char) : Bool := c.all isBreak

/-- Whether the text ends here, or a line, or a blank stands here. -/
def endsItem (c : Option Char) : Bool := c.all fun c => isBreak c || c = ' '

/-- Whether the text ends here, or a line, or a blank or a tab stands here. -/
def endsWord (c : Option Char) : Bool := c.all fun c => isBreak c || isSpace c

/-- A place in a text. -/
structure Cursor where
  rest : Text
  offset : Nat := 0
  line : Nat := 0
  column : Nat := 0

namespace Cursor

/-- The character ahead. -/
def peek (c : Cursor) : Option Char := c.rest.head?

/-- The character `n` places ahead. -/
def peekAt (c : Cursor) (n : Nat) : Option Char := c.rest[n]?

/-- Moves on by one character. -/
def advance (c : Cursor) : Cursor :=
  match c.rest with
  | [] => c
  | '\r' :: '\n' :: rest =>
    { c with rest := '\n' :: rest, offset := c.offset + 1, column := c.column + 1 }
  | ch :: rest =>
    if isBreak ch then { rest, offset := c.offset + 1, line := c.line + 1, column := 0 }
    else if ch = '\uFEFF' then { c with rest, offset := c.offset + 1 }
    else { c with rest, offset := c.offset + 1, column := c.column + 1 }

/-- Moves on by `n` characters. -/
def advanceBy : Nat → Cursor → Cursor
  | 0, c => c
  | n + 1, c => advanceBy n c.advance

/-- The characters ahead that belong to a class, and the place behind them. -/
def takeWhile (p : Char → Bool) (c : Cursor) : Text × Cursor :=
  let taken := c.rest.takeWhile p
  (taken, c.advanceBy taken.length)

/-- The place behind the characters ahead that belong to a class. -/
def skipWhile (p : Char → Bool) (c : Cursor) : Cursor := (c.takeWhile p).2

/-- The place behind the blanks ahead. -/
def skipBlanks (c : Cursor) : Cursor := c.skipWhile (· = ' ')

/-- The place behind the rest of a line, short of its break. -/
def skipLine (c : Cursor) : Cursor := c.skipWhile (!isBreak ·)

/-- A line break ahead, as the character that it counts as, and the place behind it. -/
def lineBreak? (c : Cursor) : Option (Char × Cursor) :=
  match c.rest with
  | '\r' :: '\n' :: _ => some ('\n', c.advanceBy 2)
  | ch :: _ =>
    if ch = '\n' || ch = '\r' || ch = '\x85' then some ('\n', c.advance)
    else if isBreak ch then some (ch, c.advance)
    else none
  | [] => none

/-- The place behind a line break, if there is one. -/
def skipBreak (c : Cursor) : Cursor :=
  match c.lineBreak? with
  | some (_, c) => c
  | none => c

/-- The place behind a comment, if there is one. -/
def skipComment (c : Cursor) : Cursor := if c.peek = some '#' then c.skipLine else c

/-- The place behind the rest of a line that holds no more than blanks and a comment. -/
def finishLine? (c : Cursor) : Option Cursor :=
  let c := c.skipBlanks.skipComment
  if endsLine c.peek then some c.skipBreak else none

/-- Whether three equal characters and the end of a word are ahead. -/
def atTriple (mark : Char) (c : Cursor) : Bool :=
  c.rest.take 3 == [mark, mark, mark] && endsWord (c.peekAt 3)

/-- Whether a marker that begins or ends a document is ahead. -/
def atSeparator (c : Cursor) : Bool := c.atTriple '-' || c.atTriple '.'

end Cursor

end Yaml

end InlineReport
