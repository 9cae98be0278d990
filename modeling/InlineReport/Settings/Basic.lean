import InlineReport.Data.Value

/-!
# Settings

What can be set for a run: the command and its flags, the files that the trace is written
to, where the reports go, their title, and a time limit. Every setting has a default.

A settings file holds a table from keys to values (`RawSettings`). Nine keys have a
meaning; any other entry is of no effect.
-/

namespace InlineReport

/-- The settings of a run. -/
structure Settings where
  /-- The command that runs a script. -/
  node : WideText := wide "node"
  /-- The flags that make it write a trace. -/
  traceFlags : List WideText :=
    ["--trace-inlining", "--trace-hydrogen", "--trace-phase=Z", "--trace-deopt",
     "--hydrogen-track-positions", "--redirect-code-traces"].map wide
  /-- The file that the source blocks are written to. -/
  codeFile : WideText := wide "code.asm"
  /-- The file that the compilations are written to. -/
  irFile : WideText := wide "hg.cfg"
  /-- The file that the output of the run is written to. -/
  logFile : WideText := wide "out.txt"
  htmlPath : WideText := wide "ir.html"
  /-- Where the summary goes; none is written if there is no path. -/
  jsonPath : Option WideText := none
  title : WideText := wide "JIT inlining report"
  /-- After how many seconds a run is ended. -/
  timeout : Option Binary := none
deriving DecidableEq, Repr

/-- The table of a settings file, and the containers that its values refer to. -/
structure RawSettings where
  store : Store := #[]
  entries : List (Value × Value) := []

/-- Whether a value is a given string. -/
def Value.isString (s : String) : Value → Bool
  | string t => t == wide s
  | _ => false

namespace RawSettings

/-- The value of a key. -/
def get? (raw : RawSettings) (key : String) : Option Value :=
  (raw.entries.find? fun entry => entry.1.isString key).map (·.2)

/-- The keys whose values are strings that may not be left empty. -/
def textKeys : List String :=
  ["node", "code_trace_file", "ir_trace_file", "log_file", "html_path", "title"]

/-- The keys that have a meaning. -/
def knownKeys : List String := textKeys ++ ["json_path", "trace_flags", "timeout_seconds"]

/-- Whether a key has a meaning. -/
def isKnown (key : Value) : Bool := knownKeys.any key.isString

end RawSettings

end InlineReport
