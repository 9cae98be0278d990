import InlineReport.Text.Word
import InlineReport.Trace.Number
import InlineReport.Trace.Record

/-!
# The IR stream

The IR stream is cut at each `begin_compilation` at the beginning of a line. A block
begins with the two fields

    name "FILE:FUNCTION"
    method "NAME:COMPILE"

and the name by which its version is looked up is the one of the second field. Of the
lines below, those of the form

    0 0 v7 KIND ... changes[*] ... pos:OFFSET
    0 0 v7 KIND ... changes[*] ... pos:INLINE_OFFSET

are changes; a line has one change at most, at the *last* ` pos:` that a number and a
space follow. Such a line is indented, or has a blank line before it.
-/

namespace InlineReport

namespace IrStream

open Text

/-- The text that a block begins behind. -/
def mark : Text := "begin_compilation".toList

/-- The parts of a header that are kept, with the number in digits. -/
structure Header where
  file : Text
  name : Text
  compileId : Text

/-- Reads the number that ends a method field. -/
def methodEnd? (s : Text) : Option Text := do
  let s ← cut? [':'] s
  let (compileId, s) ← digits? s
  let _ ← cut? ['"'] s
  return compileId

/-- Reads the end of a name field and the method field. -/
def method? (s : Text) : Option (Text × Text) := do
  let s ← cut? ['"'] s
  let (_, s) ← run? isBlank s
  let s ← cut? "method \"".toList s
  upTo onLine methodEnd? s

/-- Reads the header that a block begins with. -/
def header? (block : Text) : Option Header := do
  let s ← cut? "name \"".toList (stripLeft block)
  let (file, s) ← upTo onLine (cut? [':']) s
  let (_, name, compileId) ← upTo onLine method? s
  return { file, name, compileId }

/-- The digits of one offset, or of an inline id and an offset. -/
structure RawOffset where
  first : Text
  second : Option Text

/-- Reads the offsets of a change. -/
def offset? (s : Text) : Option RawOffset := do
  let s ← cut? " pos:".toList s
  let (first, s) ← digits? s
  if (cut? [' '] s).isSome then return { first, second := none }
  let s ← cut? ['_'] s
  let (second, s) ← digits? s
  let _ ← cut? [' '] s
  return { first, second := some second }

/-- Reads one digit and a space. -/
def digitField? : Text → Option Text
  | c :: ' ' :: s => if isDigit c then some s else none
  | _ => none

/-- Reads the name of a value: a word character, and digits up to a space. -/
def valueName? : Text → Option Text
  | [] => none
  | c :: s => do
    guard (isWord c)
    let (_, s) ← digits? s
    cut? [' '] s

/-- Reads a line without its indentation as a change: its kind and its offsets. -/
def changeFields? (line : Text) : Option (Text × RawOffset) := do
  let s ← digitField? line
  let s ← digitField? s
  let s ← valueName? s
  let (kind, s) ← run? isWord s
  let (_, s) ← upTo anywhere (cut? " changes[*]".toList) s
  let (_, offset) ← upToLast offset? s
  return (kind, offset)

/-- Reads a line as a change, given whether the line above it is blank. -/
def rawChange? (afterBlank : Bool) (line : Text) : Option (Text × RawOffset) := do
  guard (afterBlank || line.head?.any isBlank)
  changeFields? (stripLeft line)

/-- The changes among lines, given whether the line above the first one is blank. -/
def rawChanges : Bool → List Text → List (Text × RawOffset)
  | _, [] => []
  | afterBlank, line :: more =>
    (rawChange? afterBlank line).toList ++ rawChanges (Text.isBlank line) more

/-- The change with its numbers read. -/
def readChange (raw : Text × RawOffset) : Except Failure Change := do
  match raw.2.second with
  | none =>
    return { kind := String.ofList raw.1, offset := ← readNumber raw.2.first, inlineId := none }
  | some second =>
    return {
      kind := String.ofList raw.1
      offset := ← readNumber second
      inlineId := some (← readNumber raw.2.first) }

/-- The record of a block. -/
def block (text : Text) : Except Failure IrBlock := do
  let some header := header? text | throw (Failure.trace (.malformed "IR" text))
  let changes ← (rawChanges false (lines text)).mapM readChange
  return {
    file := String.ofList header.file
    name := String.ofList header.name
    compileId := ← readNumber header.compileId
    changes }

end IrStream

/-- The blocks of an IR stream. -/
def scanIr (text : Text) : Except Failure (List IrBlock) :=
  ((Text.splitAtLines IrStream.mark text).filter (!Text.isBlank ·)).mapM IrStream.block

end InlineReport
