import InlineReport.Text.Line
import InlineReport.Text.Wide

/-!
# What can go wrong

Three kinds of failure are kept apart, since they end a run in three ways. A
`TraceError` says that the trace itself is at fault; a `HostError` is one of the operating system,
which may be about a file or about a process; an `Overrun` is a magnitude beyond what is
handled, or a table that refers to a version it does not have. `Failure` is any of them.

Each error is a cause with the data that it was found with; its wording is in the
`message` functions, and nowhere else.
-/

namespace InlineReport

/-- A lookup that found nothing: the kind of thing looked for, and the key. -/
structure LookupFailure where
  kind : String
  key : String
deriving DecidableEq, Repr

/-- A fault of a trace. -/
inductive TraceError
  /-- A block of the named stream does not begin as its blocks do. -/
  | malformed (stream : String) (block : Text)
  /-- A block refers to something that no earlier block has introduced. -/
  | unresolved (failure : LookupFailure) (context : String)
  /-- A compiled version has two inline copies of one number. -/
  | duplicateInline (compileId copyId : Int)
  /-- An inline copy is placed below itself, or the placements are no forest. -/
  | inlineCycle (detail : String)
  /-- The traced command did not run to a successful end. -/
  | process (command : List WideText) (code : Int) (stderr : Text)
deriving DecidableEq, Repr

namespace TraceError

/-- How many characters of a malformed block are shown. -/
def shownLength : Nat := 80

/-- The text of a trace error. -/
def message : TraceError → String
  | malformed stream block =>
    s!"Malformed {stream} block: " ++ String.ofList (quoted (block.take shownLength))
  | unresolved failure context =>
    s!"No {failure.kind}: {failure.key}" ++ if context.isEmpty then "" else s!" ({context})"
  | duplicateInline compileId copyId =>
    s!"Inline id {copyId} registered twice in compiled version {compileId}"
  | inlineCycle detail => s!"Inline tree is not a forest: {detail}"
  | process _ code stderr =>
    let detail := Text.lastLine stderr
    s!"Traced command exited with {code}" ++
      if detail.isEmpty then "" else ": " ++ String.ofList detail

end TraceError

/-- Why a file or a process could not be had: the number and the words that the operating system
has for the fault. The number tells what sort of fault it is. -/
structure HostFault where
  number : Nat
  words : String
deriving DecidableEq, Repr

namespace HostFault

/-- There is nothing at a path. -/
def missing : HostFault := ⟨2, "No such file or directory"⟩

/-- Something is not allowed. -/
def denied : HostFault := ⟨13, "Permission denied"⟩

/-- There is something at a path already. -/
def «exists» : HostFault := ⟨17, "File exists"⟩

/-- A path goes on from something that is no folder. -/
def notDirectory : HostFault := ⟨20, "Not a directory"⟩

/-- There is a folder at the path of a file. -/
def isDirectory : HostFault := ⟨21, "Is a directory"⟩

/-- A name or a path is too long. -/
def nameTooLong : HostFault := ⟨36, "File name too long"⟩

/-- Whether a fault says that something is missing. -/
def isMissing (f : HostFault) : Bool := f.number == missing.number

/-- The numbers of the faults that say that a path leads nowhere: something on it is missing or is
no folder, a handle is closed, or links lead in a circle. -/
def nowhereNumbers : List Nat := [missing.number, notDirectory.number, 9, 40]

/-- Whether a fault says that a path leads nowhere. -/
def isNowhere (f : HostFault) : Bool := nowhereNumbers.contains f.number

end HostFault

/-- A file or a process that could not be had, and its path, if the fault is about one. -/
structure HostError where
  fault : HostFault
  path : Option WideText
deriving DecidableEq, Repr

/-- The text of an error of the host. -/
def HostError.message (e : HostError) : String :=
  s!"[Errno {e.fault.number}] {e.fault.words}" ++ match e.path with
    | none => ""
    | some path => ": " ++ String.ofList (WideText.quoted path)

/-- A magnitude beyond what is handled, or a reference into nowhere. -/
inductive Overrun
  /-- A number of too many digits to be read or written. -/
  | digits
  /-- A whole number beyond the range of binary fractions. -/
  | fraction
  /-- A line that would be indented by more than a text can be long. -/
  | indent
  /-- A line that would be indented by more than fits into memory. -/
  | memory
  /-- A handle that belongs to no version. -/
  | handle
  /-- Inline copies that are nested without end. -/
  | nesting
  /-- Keys that have no common order. -/
  | order
  /-- A path with a character that no path can have. -/
  | path
  /-- A text with a surrogate where only characters can be written. -/
  | surrogate
  /-- A time limit that cannot be waited for. -/
  | timeLimit
  /-- Output that is no text. -/
  | encoding
deriving DecidableEq, Repr

/-- Anything that can go wrong. -/
inductive Failure
  | trace (error : TraceError)
  | host (error : HostError)
  | overrun (limit : Overrun)
deriving DecidableEq, Repr

instance : Coe TraceError Failure := ⟨.trace⟩

instance : Coe HostError Failure := ⟨.host⟩

instance : Coe Overrun Failure := ⟨.overrun⟩

end InlineReport
