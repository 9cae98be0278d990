import InlineReport.Text.Wide
import InlineReport.Yaml.Cursor

/-!
# Scalars of a settings text

A scalar is written in one of four ways: between quotes, single or double; as a block of
indented lines behind a `|` or a `>`; or plainly, up to something that ends it. In all of
them but the `|` block, a line break is *folded*: a single one counts as a blank, and of
several in a row the first does not count. Only between double quotes can there be surrogates.

Each reader starts at the scalar and gives its text and the place behind it, or `none`
where the scalar is malformed. The readers go from line to line; the number of characters
ahead bounds their steps.
-/

namespace InlineReport

namespace Yaml

open Text

/-- The text that a line break and the breaks right behind it are folded to. -/
def foldBreaks (first : Char) (more : Text) : Text :=
  (if first != '\n' then [first] else if more.isEmpty then [' '] else []) ++ more

/-! ### Quoted scalars -/

namespace Quote

/-- What a letter behind a backslash stands for. -/
def escapes : List (Char × Char) :=
  [('0', '\x00'), ('a', '\x07'), ('b', '\x08'), ('t', '\t'), ('\t', '\t'), ('n', '\n'),
   ('v', '\x0b'), ('f', '\x0c'), ('r', '\r'), ('e', '\x1b'), (' ', ' '), ('"', '"'),
   ('\\', '\\'), ('/', '/'), ('N', '\x85'), ('_', '\xa0'), ('L', '\u2028'), ('P', '\u2029')]

/-- How many digits follow a letter behind a backslash. -/
def escapeLength? (c : Char) : Option Nat :=
  if c = 'x' then some 2 else if c = 'u' then some 4 else if c = 'U' then some 8 else none

/-- The breaks and the white space ahead: the breaks. A marker of a document may not stand
at the beginning of a line. -/
def breaks? : (fuel : Nat) → Cursor → Option (Text × Cursor)
  | 0, _ => none
  | fuel + 1, c =>
    if c.atSeparator then none
    else
      let c := c.skipWhile isSpace
      match c.lineBreak? with
      | none => some ([], c)
      | some (br, c) => (breaks? fuel c).map fun (more, c) => (br :: more, c)

/-- White space ahead, folded if it holds line breaks. -/
def spaces? (fuel : Nat) (c : Cursor) : Option (Text × Cursor) :=
  let (blanks, c) := c.takeWhile isSpace
  match c.lineBreak? with
  | some (br, c) => (breaks? fuel c).map fun (more, c) => (foldBreaks br more, c)
  | none => if c.peek.isNone then none else some (blanks, c)

/-- What a backslash stands for together with what is behind it. -/
def escape? (fuel : Nat) (c : Cursor) : Option (WideText × Cursor) :=
  match c.peek with
  | none => none
  | some ch =>
    match escapes.lookup ch, escapeLength? ch with
    | some meant, _ => some ([.char meant], c.advance)
    | none, some size => do
      let digits := c.advance.rest.take size
      guard (digits.length = size)
      let meant ← CodePoint.ofNumber? (← Hex.read? digits)
      return ([meant], c.advance.advanceBy size)
    | none, none =>
      if isBreak ch then (breaks? fuel c.skipBreak).map fun (found, c) => (found.wide, c) else none

/-- Whether a character stands for itself between quotes. -/
def isOrdinary (c : Char) : Bool :=
  !(c = '\'' || c = '"' || c = '\\' || isSpace c || isBreak c)

/-- The text of a quoted scalar up to its closing quote, and the place behind the quote. -/
def body? (isDouble : Bool) : (fuel : Nat) → Cursor → Option (WideText × Cursor)
  | 0, _ => none
  | fuel + 1, c =>
    let andThenWide (found : WideText × Cursor) : Option (WideText × Cursor) :=
      (body? isDouble fuel found.2).map fun (more, c) => (found.1 ++ more, c)
    let andThen (found : Text × Cursor) : Option (WideText × Cursor) :=
      andThenWide (found.1.wide, found.2)
    match c.peek with
    | none => none
    | some '\'' =>
      if isDouble then andThen (['\''], c.advance)
      else if c.peekAt 1 = some '\'' then andThen (['\''], c.advanceBy 2)
      else some ([], c.advance)
    | some '"' => if isDouble then some ([], c.advance) else andThen (['"'], c.advance)
    | some '\\' =>
      if isDouble then (escape? fuel c.advance).bind andThenWide
      else andThen (['\\'], c.advance)
    | some ch =>
      if isOrdinary ch then andThen (c.takeWhile isOrdinary)
      else (spaces? fuel c).bind andThen

end Quote

/-- Reads a quoted scalar, at its opening quote. -/
def quoted? (isDouble : Bool) (c : Cursor) : Option (WideText × Cursor) :=
  Quote.body? isDouble (2 * c.rest.length + 1) c.advance

/-! ### Plain scalars -/

namespace Plain

/-- The characters that end a plain scalar inside brackets. -/
def isFlowMark (c : Char) : Bool := ",?[]\x7b\x7d".toList.contains c

/-- Whether a colon before a character ends a plain scalar. -/
def endsKey (inFlow : Bool) (next : Option Char) : Bool :=
  endsWord next || (inFlow && next.any (",[]\x7b\x7d".toList.contains ·))

/-- The characters of a plain scalar up to white space, or to what ends the scalar. -/
def word (inFlow : Bool) : Text → Text
  | [] => []
  | c :: s =>
    if isSpace c || isBreak c || (c = ':' && endsKey inFlow s.head?) ||
        (inFlow && isFlowMark c) then []
    else c :: word inFlow s

/-- The line breaks and blanks ahead: the breaks, and whether the scalar may go on behind
them. It may not at a marker of a document. -/
def breaks : (fuel : Nat) → Cursor → Text × Bool × Cursor
  | 0, c => ([], false, c)
  | fuel + 1, c =>
    let c := c.skipBlanks
    match c.lineBreak? with
    | none => ([], true, c)
    | some (br, c) =>
      if c.atSeparator then ([], false, c)
      else
        let (more, goesOn, c) := breaks fuel c
        (br :: more, goesOn, c)

/-- White space inside a plain scalar. -/
structure Gap where
  text : Text
  /-- Whether the scalar may go on behind it. -/
  goesOn : Bool
  /-- Whether it holds a line break. -/
  crossesLine : Bool

/-- The white space behind a word, folded if it holds line breaks. -/
def gap (fuel : Nat) (c : Cursor) : Gap × Cursor :=
  let (blanks, c) := c.takeWhile (· = ' ')
  match c.lineBreak? with
  | none => (⟨blanks, !blanks.isEmpty, false⟩, c)
  | some (br, c) =>
    if c.atSeparator then (⟨[], false, true⟩, c)
    else
      let (more, goesOn, c) := breaks fuel c
      (⟨foldBreaks br more, goesOn, true⟩, c)

/-- A plain scalar from a word on, with the white space before that word; also whether a
line break lies between its end and the place behind it. -/
def body (inFlow : Bool) (indent : Int) : (fuel : Nat) → (space : Text) → (crossed : Bool) →
    Cursor → Text × Bool × Cursor
  | 0, _, crossed, c => ([], crossed, c)
  | fuel + 1, space, crossed, c =>
    let w := word inFlow c.rest
    if c.peek = some '#' || w.isEmpty then ([], crossed, c)
    else
      let (g, c) := gap fuel (c.advanceBy w.length)
      if !g.goesOn || c.peek = some '#' || (!inFlow && c.column < indent) then
        (space ++ w, g.crossesLine, c)
      else
        let (more, crossed, c) := body inFlow indent fuel g.text g.crossesLine c
        (space ++ w ++ more, crossed, c)

end Plain

/-- Reads a plain scalar whose lines are indented by at least `indent`: its text, whether a
line break lies between its end and the place behind it, and that place. -/
def plain (inFlow : Bool) (indent : Int) (c : Cursor) : Text × Bool × Cursor :=
  Plain.body inFlow indent (c.rest.length + 1) [] false c

/-! ### Block scalars -/

namespace Block

/-- What becomes of the line breaks at the end of a block. -/
inductive Chomping
  | strip
  | clip
  | keep
deriving DecidableEq, Repr

/-- What the sign behind the indicator of a block says. -/
def chomping? (c : Option Char) : Option Chomping :=
  if c = some '+' then some .keep else if c = some '-' then some .strip else none

/-- The indentation that a digit behind the indicator of a block gives. -/
def increment? (c : Option Char) : Option Nat :=
  c.bind fun c => if '0' ≤ c ∧ c ≤ '9' then some (c.toNat - '0'.toNat) else none

/-- The first line of a block behind its indicator: a sign and a digit in either order. -/
def header? (c : Cursor) : Option (Chomping × Option Nat × Cursor) := do
  let (chomping, c) := match chomping? c.peek with
    | some chomping => (some chomping, c.advance)
    | none => (none, c)
  let (increment, c) := match increment? c.peek with
    | some n => (some n, c.advance)
    | none => (none, c)
  let (chomping, c) := match chomping, increment, chomping? c.peek with
    | none, some _, some chomping => (some chomping, c.advance)
    | chomping, _, _ => (chomping, c)
  guard (increment ≠ some 0)
  guard (endsItem c.peek)
  return (chomping.getD .clip, increment, ← c.finishLine?)

/-- The empty lines at the beginning of a block, and the greatest column that blanks reach
there. -/
def leading : (fuel : Nat) → (widest : Nat) → Cursor → Text × Nat × Cursor
  | 0, widest, c => ([], widest, c)
  | fuel + 1, widest, c =>
    let c := c.skipBlanks
    let widest := max widest c.column
    match c.lineBreak? with
    | none => ([], widest, c)
    | some (br, c) =>
      let (more, widest, c) := leading fuel widest c
      (br :: more, widest, c)

/-- Skips blanks up to a column. -/
def skipIndent (indent : Nat) (c : Cursor) : Cursor :=
  c.advanceBy (min (c.rest.takeWhile (· = ' ')).length (indent - c.column))

/-- The empty lines ahead, and the place at the column `indent` of the line behind them, or
before it. -/
def empties (indent : Nat) : (fuel : Nat) → Cursor → Text × Cursor
  | 0, c => ([], c)
  | fuel + 1, c =>
    let c := skipIndent indent c
    match c.lineBreak? with
    | none => ([], c)
    | some (br, c) =>
      let (more, c) := empties indent fuel c
      (br :: more, c)

/-- Whether a line of the block is ahead. -/
def atLine (indent : Nat) (c : Cursor) : Bool := c.column = indent && c.peek.isSome

/-- The line break between two lines of a block, with the empty lines between them: folded
if neither line begins with white space. -/
def joint (isFolded : Bool) (brk : Text) (more : Text) (fromWord toWord : Bool) : Text :=
  if isFolded && brk = ['\n'] && fromWord && toWord then
    (if more.isEmpty then [' '] else []) ++ more
  else brk ++ more

/-- Whether something other than white space is ahead. -/
def atWord (c : Cursor) : Bool := !c.peek.any isSpace

/-- The lines of a block from one on, up to its end. -/
def linesFrom (isFolded : Bool) (chomping : Chomping) (indent : Nat) : (fuel : Nat) → Cursor →
    Text × Cursor
  | 0, c => ([], c)
  | fuel + 1, c =>
    let fromWord := atWord c
    let (line, c) := c.takeWhile (!isBreak ·)
    let (brk, c) := match c.lineBreak? with
      | some (br, c) => ([br], c)
      | none => ([], c)
    let (more, c) := empties indent fuel c
    if atLine indent c then
      let (rest, final) := linesFrom isFolded chomping indent fuel c
      (line ++ joint isFolded brk more fromWord (atWord c) ++ rest, final)
    else
      let tail := match chomping with
        | .strip => []
        | .clip => brk
        | .keep => brk ++ more
      (line ++ tail, c)

end Block

/-- Reads a block scalar inside a block with the given indentation, at its indicator. -/
def block? (isFolded : Bool) (outer : Int) (c : Cursor) : Option (Text × Cursor) := do
  let fuel := c.rest.length + 1
  let (chomping, increment, c) ← Block.header? c.advance
  let least := (max (outer + 1) 1).toNat
  let (indent, more, c) := match increment with
    | some n =>
      let indent := least + n - 1
      let (more, c) := Block.empties indent fuel c
      (indent, more, c)
    | none =>
      let (more, widest, c) := Block.leading fuel 0 c
      (max least widest, more, c)
  if Block.atLine indent c then
    let (text, c) := Block.linesFrom isFolded chomping indent fuel c
    return (more ++ text, c)
  else return (if chomping = .keep then more else [], c)

end Yaml

end InlineReport
