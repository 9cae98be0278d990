import InlineReport.Trace.Number
import InlineReport.Trace.Record

/-!
# The source stream

The source stream is cut at each `--- FUNCTION SOURCE `. A block begins with a header line

    (FILE:NAME) id{COMPILE,SECOND} ---

where the file ends at the first colon and the name reaches to the last closing
parenthesis that the ids can follow. The source text comes next and ends before the
*last* line `--- END ---`, so that it may hold such lines itself. Anywhere in the block
there may be one placement and any number of deoptimisation markers:

    INLINE (...) id{P,S} AS COPY AT <PARENT:OFFSET>
    [deoptimizing...: begin TOKEN REASON]

A block that does not begin with such a header, or whose source does not end, makes the
whole stream malformed.
-/

namespace InlineReport

namespace SourceStream

open Text

/-- The text that a block begins behind. -/
def mark : Text := "--- FUNCTION SOURCE ".toList

/-- The line that ends the source of a block, with the newline before it. -/
def endMark : Text := "\n--- END ---".toList

/-- The parts of a header, with its numbers in digits, and the text behind it. -/
structure Header where
  file : Text
  name : Text
  compileId : Text
  secondId : Text
  rest : Text

/-- Reads the ids that end a header line, and the text of the lines below. -/
def headerEnd? (s : Text) : Option (Text × Text × Text) := do
  let (compileId, secondId, s) ← idPair? s
  let s ← cut? " ---\n".toList s
  return (compileId, secondId, s)

/-- Reads the header that a block begins with. -/
def header? (block : Text) : Option Header := do
  let s ← cut? ['('] (stripLeft block)
  let (file, s) ← upTo onLine (cut? [':']) s
  let (name, compileId, secondId, rest) ← upTo onLine headerEnd? s
  return { file, name, compileId, secondId, rest }

/-- The source of a block, given the text below its header. -/
def source? (s : Text) : Option Text := (upToLast (cut? endMark) s).map (·.1)

/-- Reads a deoptimisation marker: its reason, and the rest. -/
def deopt? (s : Text) : Option (Text × Text) := do
  let s ← cut? "[deoptimizing".toList s
  let (_, s) ← upTo (· != ':') (cut? ": begin ".toList) s
  let (_, s) ← upTo (· != ' ') (cut? [' ']) s
  upTo onLine (cut? [']']) s

/-- A placement with its numbers in digits. -/
structure RawPlacement where
  copyId : Text
  parentId : Text
  offset : Text

/-- Reads the part of a placement behind the first closing parenthesis that it can
follow. -/
def placementEnd? (s : Text) : Option RawPlacement := do
  let (_, _, s) ← idPair? s
  let s ← cut? " AS ".toList s
  let (copyId, s) ← digits? s
  let s ← cut? " AT <".toList s
  let (parentId, s) ← digits? s
  let s ← cut? [':'] s
  let (offset, s) ← digits? s
  let _ ← cut? ['>'] s
  return { copyId, parentId, offset }

/-- Reads a placement. -/
def placement? (s : Text) : Option RawPlacement := do
  let s ← cut? "INLINE (".toList s
  let (_, place) ← upTo onLine placementEnd? s
  return place

/-- The placement with its numbers read. -/
def RawPlacement.read (p : RawPlacement) : Except Failure Placement := do
  return {
    copyId := ← readNumber p.copyId
    parentId := ← readNumber p.parentId
    offset := ← readNumber p.offset }

/-- The record of a block. -/
def block (text : Text) : Except Failure SourceBlock := do
  let some header := header? text | throw (Failure.trace (.malformed "function source" text))
  let some code := source? header.rest | throw (Failure.trace (.malformed "function source" text))
  let placement ← ((upTo anywhere placement? text).map (·.2)).mapM RawPlacement.read
  return {
    file := String.ofList header.file
    name := String.ofList header.name
    compileId := ← readNumber header.compileId
    secondId := ← readNumber header.secondId
    code
    deopts := (readAll deopt? text).map String.ofList
    placement }

end SourceStream

/-- The blocks of a source stream. -/
def scanSources (text : Text) : Except Failure (List SourceBlock) :=
  ((Text.split SourceStream.mark text).filter (!Text.isBlank ·)).mapM SourceStream.block

end InlineReport
