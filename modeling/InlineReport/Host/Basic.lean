import InlineReport.Data.Value
import InlineReport.Failure
import InlineReport.Host.Path
import InlineReport.Limits
import InlineReport.Number.Binary
import InlineReport.Text.Utf8

/-!
# The host of a run

A run reads and writes files, starts a process, prints, and tells what it does in a log.
`Host` lists these abilities, and nothing else is asked of the surroundings of a run: the
commands are written over any monad that has them and that can fail (`Failure`).

An ability fails with a `HostError` that names the path, or with the `Path.flaw?` of a path that
cannot exist.

Two things belong to the surroundings that are no abilities: how much the machine can hold
(`Limits`), and the loader of settings texts, which is some function from texts to values.
-/

namespace InlineReport

/-! ### The log -/

/-- How much a line of the log matters. -/
inductive LogLevel
  | debug
  | info
  | warning
  | error
deriving DecidableEq, Repr

/-- The word for a level. -/
def LogLevel.word : LogLevel → String
  | debug => "DEBUG"
  | info => "INFO"
  | warning => "WARNING"
  | error => "ERROR"

/-- The parts of the program that write to the log. -/
inductive LogSource
  | command
  | settings
  | runner
  | model
deriving DecidableEq, Repr

/-- The name of a part in the log. -/
def LogSource.name : LogSource → String
  | command => "jitlens.cli"
  | settings => "jitlens.config.loader"
  | runner => "jitlens.runner.trace"
  | model => "jitlens.model.builder"

/-- A line of the log. -/
structure LogLine where
  level : LogLevel
  source : LogSource
  message : WideText
deriving DecidableEq, Repr

namespace LogLine

/-- The text of a line. -/
def text (l : LogLine) : WideText :=
  wide s!"{l.level.word} {l.source.name}: " ++ l.message ++ wide "\n"

/-- Whether a line is shown; the finest ones are shown on demand. -/
def isShown (verbose : Bool) (l : LogLine) : Bool := verbose || l.level != .debug

end LogLine

/-! ### Files and processes -/

/-- What may be at a path. -/
inductive EntryKind
  | folder
  | file
deriving DecidableEq, Repr

/-- How a process is started. -/
structure ProcessStart where
  command : List WideText
  folder : Path
  timeout : Option Binary
deriving DecidableEq, Repr

/-- What becomes of a process. -/
inductive ProcessEnd
  | exited (code : Int) (stdout stderr : Option Text)
  | timedOut
  /-- The operating system has refused to start it. -/
  | refused (error : HostError)
  /-- It was not started, or what it printed was lost, for another reason: a command with a
  character that no command can have, a time limit that cannot be waited for, or output that is
  no text. -/
  | failed (limit : Overrun)
deriving DecidableEq, Repr

/-- What a run asks of its surroundings. -/
class Host (m : Type → Type) where
  /-- How much the machine can hold. -/
  limits : m Limits
  /-- The value of a settings text and the containers that it refers to; `none` if the text is
  ill-formed. -/
  load? : Text → m (Option (Value × Store))
  /-- The absolute path of the current folder. -/
  workplace : m Path
  /-- What is at a path, if anything. -/
  kind? : Path → m (Option EntryKind)
  /-- The bytes of a file. -/
  readBytes : Path → m (List UInt8)
  /-- Makes a folder, in a folder that is there. -/
  makeFolder : Path → m Unit
  /-- Writes a file, in a folder that is there. -/
  writeBytes : Path → List UInt8 → m Unit
  start : ProcessStart → m ProcessEnd
  log : LogLine → m Unit
  print : Text → m Unit

namespace Host

variable {m : Type → Type} [Monad m] [MonadExceptOf Failure m] [Host m]

/-- The absolute path that a path has from the current folder. -/
def resolve (p : Path) : m Path := do
  let folder ← workplace
  match p.flaw? with
  | some flaw => throw (Failure.overrun flaw)
  | none => return folder.resolve p

/-- Whether there is something at a path. -/
def isThere (p : Path) : m Bool := return (← kind? p).isSome

/-- Makes a folder unless it is there; `onMissing` says what to do where the folder that it
would lie in is missing. -/
def makeFolderOr (onMissing : HostError → m Unit) (p : Path) : m Unit :=
  tryCatchThe Failure (makeFolder p) fun
    | .host e => do
      if e.fault.isMissing then onMissing e
      else if (← kind? p) = some .folder then pure ()
      else throw (.host e)
    | e => throw e

/-- Makes a folder, in a folder that is there, unless it is there itself. -/
def ensureFolder (p : Path) : m Unit := makeFolderOr (fun e => throw (Failure.host e)) p

/-- Makes a folder with up to `depth` of the folders around it. -/
def makeFoldersFrom : (depth : Nat) → Path → m Unit
  | 0, p => ensureFolder p
  | depth + 1, p => makeFolderOr (fun _ => do makeFoldersFrom depth p.parent; ensureFolder p) p

/-- Makes a folder and all folders around it, unless they are there. -/
def makeFolders (p : Path) : m Unit := makeFoldersFrom p.parts.length p

/-- Writes a text to a file, in a folder that is there. -/
def writeText (p : Path) (text : Text) : m Unit := writeBytes p (Utf8.encode text)

end Host

end InlineReport
