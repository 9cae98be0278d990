import InlineReport.Data.Form
import InlineReport.Settings.Basic

/-!
# Tables over settings

A table is laid over settings key by key. A value that cannot be used leaves the setting
as it was; which values can be used depends on the setting.

* **A text** is taken from any value but null.
* **The flags** are taken from a list.
* **The path of the summary** is taken from any value, and null takes it away.
* **The time limit** is taken from any value that stands for a fraction, and null takes it
  away.

Three values make the whole table unusable: a whole number with too many digits to be
written out as a text, one beyond the range of fractions as the time limit, and containers that
are nested too deeply to be shown.
-/

namespace InlineReport

namespace Settings

/-- The text that a table gives for a key, or the text that there was before. -/
def mergeText (lim : Limits) (raw : RawSettings) (key : String) (base : WideText) :
    Except Failure WideText :=
  match raw.get? key with
  | none | some .null => .ok base
  | some v => v.text lim raw.store

/-- The path that a table gives for a key, or what there was before. -/
def mergePath (lim : Limits) (raw : RawSettings) (key : String) (base : Option WideText) :
    Except Failure (Option WideText) :=
  match raw.get? key with
  | none => .ok base
  | some .null => .ok none
  | some v => (v.text lim raw.store).map some

/-- The texts that a table gives for a key, or the texts that there were before. -/
def mergeTexts (lim : Limits) (raw : RawSettings) (key : String) (base : List WideText) :
    Except Failure (List WideText) :=
  match (raw.get? key).bind (Value.items? raw.store) with
  | none => .ok base
  | some items => items.mapM (Value.text lim raw.store)

/-- The fraction that a table gives for a key, or what there was before. -/
def mergeFraction (raw : RawSettings) (key : String) (base : Option Binary) :
    Except Failure (Option Binary) :=
  match raw.get? key with
  | none => .ok base
  | some .null => .ok none
  | some v => v.fraction?.map fun x => if x.isSome then x else base

/-- Settings with a table laid over them. -/
def merge (lim : Limits) (base : Settings) (raw : RawSettings) : Except Failure Settings := do
  let traceFlags ← mergeTexts lim raw "trace_flags" base.traceFlags
  return {
    traceFlags
    node := ← mergeText lim raw "node" base.node
    codeFile := ← mergeText lim raw "code_trace_file" base.codeFile
    irFile := ← mergeText lim raw "ir_trace_file" base.irFile
    logFile := ← mergeText lim raw "log_file" base.logFile
    htmlPath := ← mergeText lim raw "html_path" base.htmlPath
    jsonPath := ← mergePath lim raw "json_path" base.jsonPath
    title := ← mergeText lim raw "title" base.title
    timeout := ← mergeFraction raw "timeout_seconds" base.timeout }

end Settings

end InlineReport
