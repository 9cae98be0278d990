/-!
# Settings files to begin with

A folder can be given a settings file to begin with: one that spells out every default, or
a short one.
-/

namespace InlineReport

/-- A settings file to begin with. -/
inductive Preset
  | full
  | minimal
deriving DecidableEq, Repr

namespace Preset

/-- The presets by their names, in the order of the names. -/
def all : List (String × Preset) := [("full", full), ("minimal", minimal)]

/-- The lines of a preset. -/
def lines : Preset → List String
  | full => [
    "# jitlens configuration (paths are relative to the working directory)",
    "node: \"node\"",
    "trace_flags:",
    "  - \"--trace-inlining\"",
    "  - \"--trace-hydrogen\"",
    "  - \"--trace-phase=Z\"",
    "  - \"--trace-deopt\"",
    "  - \"--hydrogen-track-positions\"",
    "  - \"--redirect-code-traces\"",
    "",
    "# Trace files written by the traced run and read back by the parser",
    "code_trace_file: \"code.asm\"",
    "ir_trace_file: \"hg.cfg\"",
    "log_file: \"out.txt\"",
    "",
    "# Outputs",
    "html_path: \"ir.html\"",
    "json_path:",
    "title: \"JIT inlining report\"",
    "",
    "# Kill the traced run after this many seconds (empty to wait forever)",
    "timeout_seconds:"]
  | minimal => [
    "# jitlens configuration (minimal)",
    "node: \"node\"",
    "html_path: \"ir.html\""]

/-- The text of a preset. -/
def text (p : Preset) : String := String.join (p.lines.map (· ++ "\n"))

end Preset

end InlineReport
