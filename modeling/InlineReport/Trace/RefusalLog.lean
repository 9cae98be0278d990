import InlineReport.Text.Basic
import InlineReport.Trace.Record

/-!
# The run log

The run log is the output of the traced program with the compiler's own notices among
it. A notice stands on one line:

    Did not inline CALLEE called from CALLER (REASON).

Each of its three fields is as short as possible. A refusal that depends on where the
call stands (how deep, how much has been inlined already, whether it is recursive)
says nothing about the callee, and is left out.
-/

namespace InlineReport

namespace RefusalLog

open Text

/-- Reads a notice: the record, and the rest. -/
def notice? (s : Text) : Option (Refusal × Text) := do
  let s ← cut? "Did not inline ".toList s
  let (callee, s) ← upTo onLine (cut? " called from ".toList) s
  let (caller, s) ← upTo onLine (cut? " (".toList) s
  let (reason, s) ← upTo onLine (cut? ").".toList) s
  return ({
    callee := String.ofList callee
    caller := String.ofList caller
    reason := String.ofList reason }, s)

/-- The phrases by which a reason shows that it is about the place of the call. -/
def placePhrases : List String := ["cumulative", "depth limit", "recursive"]

end RefusalLog

/-- Whether a reason is about the place of the call, and not about the callee. -/
def isPlaceReason (reason : String) : Bool :=
  RefusalLog.placePhrases.any fun phrase => Text.hasPart phrase.toList reason.toList

/-- The refusals of a run log that are about the callee. -/
def scanRefusals (text : Text) : List Refusal :=
  (Text.readAll RefusalLog.notice? text).filter (!isPlaceReason ·.reason)

end InlineReport
