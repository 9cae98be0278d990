import InlineReport.Host.Basic
import InlineReport.Number.Shortest
import InlineReport.Settings.Basic
import InlineReport.Text.Line

/-!
# Tracing a script

A script is run by a command with the flags that make it write a trace. Two of the three
streams of a trace are files that the command writes; the third is what it prints, which is
put into a file here. If the command does not end well, nothing is written.
-/

namespace InlineReport

namespace Settings

/-- The command that runs a script with its arguments and writes a trace. -/
def traceCommand (s : Settings) (script : List String) : List WideText :=
  s.node :: s.traceFlags ++
    [wide "--redirect-code-traces-to=" ++ s.codeFile, wide "--trace_hydrogen_file=" ++ s.irFile] ++
    script.map wide

end Settings

/-- What is said about a process that was ended after a time limit. -/
def timeoutNote (timeout : Option Binary) : Text :=
  let seconds := (timeout.map Binary.text).getD "None".toList
  "timed out after ".toList ++ seconds ++ ['s']

namespace ProcessEnd

/-- The standard output and error of a process that ended well, and otherwise why it did
not. -/
def outcome (e : ProcessEnd) (s : ProcessStart) : Except Failure (Text × Text) :=
  match e with
  | exited code stdout stderr =>
    if code = 0 then .ok (stdout.getD [], stderr.getD [])
    else .error (TraceError.process s.command code (stderr.getD []))
  | timedOut => .error (TraceError.process s.command (-1) (timeoutNote s.timeout))
  | refused error =>
    if error.fault.isMissing then .error (TraceError.process s.command 127 error.message.toList)
    else .error error
  | failed limit => .error limit

end ProcessEnd

/-- The three streams of a trace. -/
structure TraceTexts where
  code : Text
  ir : Text
  log : Text
deriving DecidableEq, Repr

variable {m : Type → Type} [Monad m] [MonadExceptOf Failure m] [Host m]

/-- Runs a script in a folder, and gives the path of the file with what it printed. -/
def runTraced (folder : Path) (s : Settings) (script : List String) : m Path := do
  let command := s.traceCommand script
  Host.log { level := .info, source := .runner
             message := wide "Running " ++ (wide " ").intercalate command }
  let start : ProcessStart := { command, folder, timeout := s.timeout }
  match (← Host.start start).outcome start with
  | .error e => throw e
  | .ok (stdout, stderr) =>
    let path := folder.join (.ofText s.logFile)
    Host.makeFolders path.parent
    Host.writeText path (stdout ++ stderr)
    Host.log { level := .debug, source := .runner
               message := wide "Wrote run log to " ++ path.text }
    return path

/-- Reads a stream of a trace. -/
def readStream (folder : Path) (file : WideText) : m Text := do
  let bytes ← Host.readBytes (folder.join (.ofText file))
  return Text.unifyNewlines (Utf8.decodeLossy bytes)

/-- Reads the three streams of a trace. -/
def readTexts (folder : Path) (s : Settings) : m TraceTexts := do
  return {
    code := ← readStream folder s.codeFile
    ir := ← readStream folder s.irFile
    log := ← readStream folder s.logFile }

end InlineReport
