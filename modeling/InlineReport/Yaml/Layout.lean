import InlineReport.Text.Digit
import InlineReport.Text.Utf8
import InlineReport.Yaml.Literal
import InlineReport.Yaml.Token

/-!
# From a settings text to tokens

The text is read token by token, with an account of its layout: the columns of the open
blocks, and the brackets that are open. Inside brackets indentation does not count.

What makes this more than cutting is that a key is recognised only at the colon behind it.
Each token that may begin a key is therefore noted as a **candidate**, one for each level
of brackets; when the colon comes, the announcement of the key (and of the block of keys,
if the key opens one) is put in front of that token. A candidate has to be on the line of
its colon and not too far before it; one that *must* become a key, since it stands at
the column of the open block, and does not, makes the text malformed.
-/

namespace InlineReport

namespace Yaml

/-- A token that may turn out to begin a key. -/
structure Candidate where
  /-- The number of tokens before it. -/
  position : Nat
  /-- Whether it has to become a key. -/
  required : Bool
  offset : Nat
  line : Nat
  column : Nat

/-- How far a colon may lie behind the beginning of its key. -/
def longestKey : Nat := 1024

/-- The tokens read so far, and the layout at the place that has been reached. -/
structure Layout where
  cursor : Cursor
  tokens : List Token := []
  /-- The column of the innermost open block; less than zero if none is open. -/
  indent : Int := -1
  /-- The columns of the blocks around it, the innermost first. -/
  outer : List Int := []
  /-- Whether a key may begin here. -/
  keyAllowed : Bool := true
  /-- The candidate of the innermost level of brackets. -/
  candidate : Option Candidate := none
  /-- The candidates of the levels around it, the innermost first. -/
  others : List (Option Candidate) := []

namespace Layout

/-- Whether brackets are open. -/
def inFlow (l : Layout) : Bool := !l.others.isEmpty

/-- Adds a token. -/
def emit (l : Layout) (t : Token) : Layout := { l with tokens := l.tokens ++ [t] }

/-- Puts a token in front of the token at a position. -/
def emitAt (l : Layout) (position : Nat) (t : Token) : Layout :=
  { l with tokens := l.tokens.take position ++ t :: l.tokens.drop position }

/-- Moves to a place. -/
def goto (l : Layout) (c : Cursor) : Layout := { l with cursor := c }

/-! ### Candidates -/

/-- A candidate that can still become a key at a place; `none` on the outside if one that
has to cannot. -/
def refresh (c : Cursor) (k : Candidate) : Option (Option Candidate) :=
  if k.line = c.line ∧ c.offset - k.offset ≤ longestKey then some (some k)
  else if k.required then none
  else some none

/-- Gives up the candidates that can no longer become keys. -/
def refreshAll (l : Layout) : Option Layout := do
  let freshen (k : Option Candidate) : Option (Option Candidate) :=
    match k with
    | none => some none
    | some k => refresh l.cursor k
  return { l with candidate := ← freshen l.candidate, others := ← l.others.mapM freshen }

/-- Gives up the candidate of the innermost level. -/
def dropCandidate (l : Layout) : Option Layout :=
  if l.candidate.any (·.required) then none else some { l with candidate := none }

/-- Notes the next token as a candidate, where a key may begin. -/
def noteCandidate (l : Layout) : Option Layout :=
  if l.keyAllowed then do
    let l ← l.dropCandidate
    return { l with
      candidate := some {
        position := l.tokens.length
        required := !l.inFlow && l.indent = l.cursor.column
        offset := l.cursor.offset
        line := l.cursor.line
        column := l.cursor.column } }
  else some l

/-! ### Blocks -/

/-- Closes the open blocks whose columns lie behind a column. -/
def closeBlocks (column : Int) : List Int → Layout → Layout
  | [], l => l
  | next :: outer, l =>
    if l.indent > column then
      closeBlocks column outer { (l.emit .blockEnd) with indent := next, outer }
    else l

/-- Closes the open blocks whose columns lie behind a column, outside of brackets. -/
def unwind (l : Layout) (column : Int) : Layout :=
  if l.inFlow then l else closeBlocks column l.outer l

/-- Opens a block at a column if it lies behind that of the open block. -/
def openBlock? (l : Layout) (column : Int) : Option Layout :=
  if l.indent < column then some { l with indent := column, outer := l.indent :: l.outer }
  else none

/-- Opens a block at the place reached, with its token, if it is indented further. -/
def openHere (l : Layout) (t : Token) : Layout :=
  match l.openBlock? l.cursor.column with
  | some l => l.emit t
  | none => l

/-! ### Blanks, comments and directives -/

/-- Skips blanks, comments and line breaks up to the next token; behind a line break a key
may begin. -/
def skipToToken : (fuel : Nat) → Layout → Layout
  | 0, l => l
  | fuel + 1, l =>
    let c := l.cursor.skipBlanks.skipComment
    match c.lineBreak? with
    | some (_, c) =>
      skipToToken fuel { l with cursor := c, keyAllowed := l.keyAllowed || !l.inFlow }
    | none => l.goto c

/-- Whether a character may stand in the name of an anchor or of a directive. -/
def isName (c : Char) : Bool := c.isAlphanum || c = '-' || c = '_'

/-- Reads the version of a directive: its first number. -/
def version? (c : Cursor) : Option (Directive × Cursor) := do
  let (major, c) := c.skipBlanks.takeWhile isAsciiDigit
  guard (!major.isEmpty)
  guard (c.peek = some '.')
  let (minor, c) := c.advance.takeWhile isAsciiDigit
  guard (!minor.isEmpty)
  guard (major.length ≤ Digit.longestRun && minor.length ≤ Digit.longestRun)
  guard (endsItem c.peek)
  return (.version (Digit.value major), c)

/-- Reads a handle, which stands between exclamation marks or is a single one. -/
def handle? (c : Cursor) : Option (Text × Cursor) := do
  guard (c.peek = some '!')
  let first := c.advance
  if first.peek = some ' ' then return (['!'], first)
  let (name, c) := first.takeWhile isName
  guard (c.peek = some '!')
  return ('!' :: name ++ ['!'], c.advance)

/-- Whether a character may stand in a tag. -/
def isUri (c : Char) : Bool := c.isAlphanum || "-;/?:@&=+$,_.!~*'()[]".toList.contains c

/-- Bytes written as percent signs with two hexadecimal digits each. -/
def uriBytes : Text → List UInt8 × Text
  | '%' :: high :: low :: rest =>
    match Hex.read? [high, low] with
    | some n =>
      let (more, rest) := uriBytes rest
      (n.toUInt8 :: more, rest)
    | none => ([], '%' :: high :: low :: rest)
  | rest => ([], rest)

/-- Reads the characters of a tag; at least one is needed. -/
def uri? : (fuel : Nat) → Cursor → Option (Text × Cursor)
  | 0, _ => none
  | fuel + 1, c => do
    let (front, c) := c.takeWhile isUri
    let (here, c) ←
      if c.peek = some '%' then
        let (bytes, rest) := uriBytes c.rest
        guard (!bytes.isEmpty && rest.head? ≠ some '%')
        pure (← Utf8.decode? bytes, c.advanceBy (3 * bytes.length))
      else pure ([], c)
    guard (!front.isEmpty || !here.isEmpty)
    match uri? fuel c with
    | some (more, c) => return (front ++ here ++ more, c)
    | none => if c.peek = some '%' then none else return (front ++ here, c)

/-- Reads the handle and the text of a tag directive. -/
def tagDirective? (c : Cursor) : Option (Directive × Cursor) := do
  let (handle, c) ← handle? c.skipBlanks
  guard (c.peek = some ' ')
  let c := c.skipBlanks
  let (uriStart, c) ← uri? (c.rest.length + 1) c
  guard (endsItem c.peek)
  return (.tag handle uriStart, c)

/-- Reads a directive, behind its percent sign. -/
def directive? (c : Cursor) : Option (Directive × Cursor) := do
  let (name, c) := c.takeWhile isName
  guard (!name.isEmpty)
  guard (endsItem c.peek)
  let (d, c) ←
    if name = "YAML".toList then version? c
    else if name = "TAG".toList then tagDirective? c
    else pure (Directive.other, c.skipLine)
  return (d, ← c.finishLine?)

/-- Reads the name of an anchor or of an alias, behind its sign. -/
def anchorName? (c : Cursor) : Option (Text × Cursor) := do
  let (name, c) := c.takeWhile isName
  guard (!name.isEmpty)
  guard (endsWord c.peek || c.peek.any ("?:,]\x7d%@\x60".toList.contains ·))
  return (name, c)

/-- Whether a tag begins with a handle of its own: another exclamation mark follows before
the end of the word. -/
def hasHandle (s : Text) : Bool :=
  (s.dropWhile fun c => !(c = '!' || isBreak c || c = ' ')).head? = some '!'

/-- Reads a tag, at its exclamation mark. -/
def tag? (c : Cursor) : Option (TagName × Cursor) := do
  let inner := c.advance
  let (name, c) ←
    if inner.peek = some '<' then do
      let (rest, c) ← uri? c.rest.length inner.advance
      guard (c.peek = some '>')
      pure (({ handle := none, rest } : TagName), c.advance)
    else if endsWord inner.peek then
      pure ({ handle := none, rest := ['!'] }, inner)
    else do
      let (handle, c) ← if hasHandle inner.rest then handle? c else pure (['!'], inner)
      let (rest, c) ← uri? (c.rest.length + 1) c
      pure ({ handle := some handle, rest }, c)
  guard (endsItem c.peek)
  return (name, c)

/-! ### Tokens -/

/-- Reads a line that is about the whole document: it closes all blocks. -/
def documentLine (l : Layout) (t : Token) (c : Cursor) : Option Layout := do
  let l ← (l.unwind (-1)).dropCandidate
  return ({ l with keyAllowed := false }.goto c).emit t

/-- Reads an opening bracket. -/
def openBracket (l : Layout) (t : Token) : Option Layout := do
  let l ← l.noteCandidate
  return ({ l with
    candidate := none, others := l.candidate :: l.others, keyAllowed := true }.goto
      l.cursor.advance).emit t

/-- Reads a closing bracket. -/
def closeBracket (l : Layout) (t : Token) : Option Layout := do
  let l ← l.dropCandidate
  match l.others with
  | [] => none
  | k :: others =>
    return ({ l with candidate := k, others, keyAllowed := false }.goto l.cursor.advance).emit t

/-- Reads a comma between brackets. -/
def flowEntry (l : Layout) : Option Layout := do
  let l ← l.dropCandidate
  return ({ l with keyAllowed := true }.goto l.cursor.advance).emit .flowEntry

/-- Reads the dash of an item. -/
def blockEntry (l : Layout) : Option Layout := do
  guard (l.inFlow || l.keyAllowed)
  let l := if l.inFlow then l else l.openHere .blockSequenceStart
  let l ← l.dropCandidate
  return ({ l with keyAllowed := true }.goto l.cursor.advance).emit .blockEntry

/-- Reads the question mark of a key. -/
def explicitKey (l : Layout) : Option Layout := do
  guard (l.inFlow || l.keyAllowed)
  let l := if l.inFlow then l else l.openHere .blockMappingStart
  let l ← l.dropCandidate
  return ({ l with keyAllowed := !l.inFlow }.goto l.cursor.advance).emit .key

/-- Reads the colon of a value, behind a candidate. -/
def valueOf (l : Layout) (k : Candidate) : Layout :=
  let l := ({ l with candidate := none, keyAllowed := false }.emitAt k.position .key)
  let l :=
    match (if l.inFlow then none else l.openBlock? k.column) with
    | some l => l.emitAt k.position .blockMappingStart
    | none => l
  (l.goto l.cursor.advance).emit .value

/-- Reads the colon of a value. -/
def value (l : Layout) : Option Layout :=
  match l.candidate with
  | some k => some (l.valueOf k)
  | none => do
    guard (l.inFlow || l.keyAllowed)
    let l := if l.inFlow then l else l.openHere .blockMappingStart
    return ({ l with keyAllowed := !l.inFlow }.goto l.cursor.advance).emit .value

/-- Reads a token that may begin a key, and behind which no key may begin. -/
def keyLike (l : Layout) (found : Option (Token × Cursor)) : Option Layout := do
  let l ← l.noteCandidate
  let (t, c) ← found
  return ({ l with keyAllowed := false }.goto c).emit t

/-- Reads a plain scalar; behind a line break a key may begin again. -/
def plainScalar (l : Layout) : Option Layout := do
  let l ← l.noteCandidate
  let (text, crossed, c) := plain l.inFlow (l.indent + 1) l.cursor
  return ({ l with keyAllowed := crossed }.goto c).emit (.scalar true (Text.wide text))

/-- Reads a block scalar. -/
def blockScalar (l : Layout) (isFolded : Bool) : Option Layout := do
  let l ← l.dropCandidate
  let (text, c) ← block? isFolded l.indent l.cursor
  return ({ l with keyAllowed := true }.goto c).emit (.scalar false (Text.wide text))

/-- Whether a plain scalar may begin with the characters ahead. -/
def atPlain (l : Layout) : Bool :=
  match l.cursor.peek with
  | none => false
  | some c =>
    if isSpace c || isBreak c then false
    else if c = '-' then !endsWord (l.cursor.peekAt 1)
    else if c = '?' || c = ':' then !endsWord (l.cursor.peekAt 1) && !l.inFlow
    else !",[]\x7b\x7d#&*!|>'\"%@\x60".toList.contains c

/-- Reads the token that begins with the character ahead. -/
def token (l : Layout) (ch : Char) : Option Layout :=
  let c := l.cursor
  let atEnd := endsWord (c.peekAt 1)
  if ch = '%' && c.column = 0 then do
    let (d, c) ← directive? c.advance
    l.documentLine (.directive d) c
  else if c.column = 0 && c.atTriple '-' then l.documentLine .documentStart (c.advanceBy 3)
  else if c.column = 0 && c.atTriple '.' then l.documentLine .documentEnd (c.advanceBy 3)
  else if ch = '[' then l.openBracket .flowSequenceStart
  else if ch = '\x7b' then l.openBracket .flowMappingStart
  else if ch = ']' then l.closeBracket .flowSequenceEnd
  else if ch = '\x7d' then l.closeBracket .flowMappingEnd
  else if ch = ',' then l.flowEntry
  else if ch = '-' && atEnd then l.blockEntry
  else if ch = '?' && (l.inFlow || atEnd) then l.explicitKey
  else if ch = ':' && (l.inFlow || atEnd) then l.value
  else if ch = '*' then l.keyLike ((anchorName? c.advance).map fun (n, c) => (.alias n, c))
  else if ch = '&' then l.keyLike ((anchorName? c.advance).map fun (n, c) => (.anchor n, c))
  else if ch = '!' then l.keyLike ((tag? c).map fun (t, c) => (.tag t, c))
  else if ch = '|' && !l.inFlow then l.blockScalar false
  else if ch = '>' && !l.inFlow then l.blockScalar true
  else if ch = '\'' then l.keyLike ((quoted? false c).map fun (s, c) => (.scalar false s, c))
  else if ch = '"' then l.keyLike ((quoted? true c).map fun (s, c) => (.scalar false s, c))
  else if l.atPlain then l.plainScalar
  else none

/-- Reads tokens up to the end of the text, where all blocks are closed. -/
def run : (fuel : Nat) → Layout → Option Layout
  | 0, _ => none
  | fuel + 1, l => do
    let l ← (skipToToken (l.cursor.rest.length + 1) l).refreshAll
    let l := l.unwind l.cursor.column
    match l.cursor.peek with
    | none => (l.unwind (-1)).dropCandidate
    | some ch => run fuel (← l.token ch)

end Layout

/-- Whether a character may occur in a settings file. -/
def isAllowed (c : Char) : Bool :=
  c = '\t' || c = '\n' || c = '\r' || c = '\x85' || (' ' ≤ c && c ≤ '~') ||
    (0xA0 ≤ c.toNat && c.toNat ≤ 0xFFFD) || 0x10000 ≤ c.toNat

/-- The tokens of a settings text, if it is well-formed. A byte order mark may stand at its
beginning. -/
def tokens? (s : Text) : Option (List Token) := do
  guard (s.all isAllowed)
  let start : Cursor := { rest := s }
  let start := if s.head? = some '\uFEFF' then start.advance else start
  let l ← Layout.run (s.length + 2) { cursor := start }
  return l.tokens

end Yaml

end InlineReport
