import InlineReport.Settings.Basic
import InlineReport.Yaml.Writer

/-!
# Settings as a settings file

Settings are written as a table with all nine keys in a fixed order, so that reading it
back gives the same settings.
-/

namespace InlineReport

namespace Settings

open Yaml

/-- The line of a key whose value is a text. -/
def textLine (key : String) (value : WideText) : Text :=
  let start := key.toList ++ [':']
  start ++ Writer.string start.length value ++ ['\n']

/-- The line of a key whose value is written out already. -/
def line (key : String) (value : Text) : Text := key.toList ++ ':' :: ' ' :: value ++ ['\n']

/-- The lines of a key whose value is a list of texts. -/
def textsLines (key : String) (values : List WideText) : Text :=
  if values.isEmpty then line key "[]".toList
  else key.toList ++ ':' :: '\n' ::
    values.flatMap fun v => '-' :: Writer.string 1 v ++ ['\n']

/-- Settings as the text of a settings file. -/
def text (s : Settings) : Text :=
  textLine "node" s.node ++ textsLines "trace_flags" s.traceFlags ++
    textLine "code_trace_file" s.codeFile ++ textLine "ir_trace_file" s.irFile ++
    textLine "log_file" s.logFile ++ textLine "html_path" s.htmlPath ++
    (match s.jsonPath with
      | none => line "json_path" "null".toList
      | some path => textLine "json_path" path) ++
    textLine "title" s.title ++
    line "timeout_seconds" (match s.timeout with
      | none => "null".toList
      | some x => Writer.fraction x)

end Settings

end InlineReport
