import InlineReport.Proofs.Command.Report
import InlineReport.Proofs.Text.Line

/-!
# How a traced script ends

A script is traced by a process. There is a trace to read only if the process exits with the code
zero: then what it has printed is put into the log file, first the output and then the errors,
and the path of that file is the result (`Request.runIn_runTraced_of_exited`). Otherwise the world
is left as the process has left it, with no file written, and the result says why.

**The reason is a fault of the trace** where a process exits with another code, has to be ended
after a time limit, or is not found (`Request.BlamesTrace`). A process that the operating system
refuses to start for any other reason is a fault of the host, so that the caller ends with
another code for it; and one that is lost for a reason of its own (`ProcessEnd.failed`) is not
reported as a fault at all (`Request.exists_of_not_blamesTrace`).

What is said of a process that has failed ends with the last line that it has printed as an error
(`TraceError.message_process`). There is such a line whatever has been printed, so that saying why
a process has failed does not fail itself.
-/

namespace InlineReport

namespace Request

open Session

variable {w w₁ : World} {folder : Path} {s : Settings} {script : List String}
  {ended : ProcessEnd} {t : Tree} {stdout stderr : Option Text} {e : Failure}

/-! ### Processes that do not end well -/

/-- Whether the end of a process is a fault of the trace. -/
def BlamesTrace : ProcessEnd → Prop
  | .exited code _ _ => code ≠ 0
  | .timedOut => True
  | .refused error => error.fault.isMissing = true
  | .failed _ => False

/-- The fault is one of a traced command. -/
theorem exists_process_of_blamesTrace (h : BlamesTrace ended) :
    ∃ code detail, ended.outcome (startOf folder s script) =
      .error (.trace (.process (s.traceCommand script) code detail)) := by
  cases ended with
  | exited code stdout stderr => exact ⟨code, _, if_neg h⟩
  | timedOut => exact ⟨-1, _, rfl⟩
  | refused error => exact ⟨127, _, if_pos h⟩
  | failed limit => exact h.elim

/-- **The other ends that are not good ones**: the operating system has refused to start a process
though nothing is missing, or the process has failed for a reason of its own. -/
theorem exists_of_not_blamesTrace (hfailed : ∀ stdout stderr, ended ≠ .exited 0 stdout stderr)
    (h : ¬ BlamesTrace ended) :
    (∃ error, ended = .refused error ∧ error.fault.isMissing = false ∧
      ended.outcome (startOf folder s script) = .error (.host error)) ∨
    ∃ limit, ended = .failed limit ∧
      ended.outcome (startOf folder s script) = .error (.overrun limit) := by
  cases ended with
  | exited code stdout stderr =>
    obtain rfl : code = 0 := not_not.mp h
    exact absurd rfl (hfailed stdout stderr)
  | timedOut => exact absurd trivial h
  | refused error => exact .inl ⟨error, rfl, Bool.eq_false_iff.mpr h, if_neg h⟩
  | failed limit => exact .inr ⟨limit, rfl, rfl⟩

/-- **A process that does not end well** is the end of the script, and nothing is written. -/
theorem runIn_runTraced_of_outcome
    (hprocess : w.process (startOf folder s script) w.tree = (ended, t))
    (houtcome : ended.outcome (startOf folder s script) = .error e) :
    (runTraced folder s script : Session Path).runIn w =
      (.error e, afterProcess w folder s script t) := by
  rw [runIn_runTraced hprocess, houtcome]
  rfl

/-! ### Processes that end well -/

theorem runIn_runTraced_of_exited
    (hprocess : w.process (startOf folder s script) w.tree = (.exited 0 stdout stderr, t)) :
    (runTraced folder s script : Session Path).runIn w =
      (saveOutput (pathIn folder s.logFile) (stdout.getD [] ++ stderr.getD [])).runIn
        (afterProcess w folder s script t) :=
  runIn_runTraced hprocess

theorem exists_of_saveOutput {path : Path} {text : Text}
    (hsave : (save path text).runIn w = (.ok (), w₁)) :
    ∃ w', (saveOutput path text).runIn w = (.ok path, w') ∧
      w.tree.Saved w'.tree path (Utf8.encode text) := by
  have hrun : (saveOutput path text).runIn w = (.ok path, { w₁ with
      log := w₁.log ++ [{ level := .debug, source := .runner
                          message := wide "Wrote run log to " ++ path.text }] }) := by
    rw [saveOutput_eq, runIn_bind_of_ok hsave, runIn_bind_of_ok (runIn_log _), runIn_pure]
  exact ⟨_, hrun, saved_of_saveOutput hrun⟩

theorem runIn_saveOutput_of_error {path : Path} {text : Text}
    (hsave : (save path text).runIn w = (.error e, w₁)) :
    (saveOutput path text).runIn w = (.error e, w₁) := by
  rw [saveOutput_eq, runIn_bind_of_error hsave]

/-! ### All ends -/

/-- **No other end is a fault of the trace**, and neither is anything that keeps the output of a
process from being written. -/
theorem runIn_runTraced_ne_trace
    (hprocess : w.process (startOf folder s script) w.tree = (ended, t))
    (h : ¬ BlamesTrace ended) (fault : TraceError) :
    ((runTraced folder s script : Session Path).runIn w).1 ≠ .error (.trace fault) := by
  by_cases hexited : ∃ stdout stderr, ended = .exited 0 stdout stderr
  · obtain ⟨stdout, stderr, rfl⟩ := hexited
    rw [runIn_runTraced_of_exited hprocess]
    exact faultless_saveOutput _ _ _ fault
  · push Not at hexited
    rcases exists_of_not_blamesTrace hexited h with ⟨error, -, -, houtcome⟩ | ⟨limit, -, houtcome⟩
    · rw [runIn_runTraced_of_outcome hprocess houtcome]
      exact fun h => nomatch h
    · rw [runIn_runTraced_of_outcome hprocess houtcome]
      exact fun h => nomatch h

/-- **How a traced script ends.** It finds fault with the trace exactly where its process exits
with another code than zero, is ended after a time limit, or is not found. Whenever the process
does not exit with zero, nothing is written: the world is left as the process has left it, and the
result is the fault of the trace, what the operating system has said, or the reason that the
process had of its own. After a process that does exit with zero, the log file has what was
printed and its path is the result, if the file can be written; what keeps it from being written
is the result otherwise. -/
theorem ends_runTraced (hprocess : w.process (startOf folder s script) w.tree = (ended, t)) :
    ((∃ fault, ((runTraced folder s script : Session Path).runIn w).1 = .error (.trace fault)) ↔
      BlamesTrace ended) ∧
    ((∀ stdout stderr, ended ≠ .exited 0 stdout stderr) →
      ∃ e, (runTraced folder s script : Session Path).runIn w =
        (.error e, afterProcess w folder s script t) ∧
      (BlamesTrace ended ∧
          (∃ code detail, e = .trace (.process (s.traceCommand script) code detail)) ∨
        (∃ error, ended = .refused error ∧ error.fault.isMissing = false ∧ e = .host error) ∨
        ∃ limit, ended = .failed limit ∧ e = .overrun limit)) ∧
    ∀ stdout stderr, ended = .exited 0 stdout stderr → ∀ written w₁,
      (save (pathIn folder s.logFile) (stdout.getD [] ++ stderr.getD [])).runIn
        (afterProcess w folder s script t) = (written, w₁) →
      match written with
      | .ok () => ∃ w', (runTraced folder s script : Session Path).runIn w =
          (.ok (pathIn folder s.logFile), w') ∧
        t.Saved w'.tree (pathIn folder s.logFile) (Utf8.encode (stdout.getD [] ++ stderr.getD []))
      | .error e => (runTraced folder s script : Session Path).runIn w = (.error e, w₁) := by
  refine ⟨⟨?_, fun h => ?_⟩, fun hfailed => ?_, ?_⟩
  · rintro ⟨fault, hfault⟩
    by_contra h
    exact runIn_runTraced_ne_trace hprocess h fault hfault
  · obtain ⟨code, detail, houtcome⟩ := exists_process_of_blamesTrace h
    exact ⟨_, by rw [runIn_runTraced_of_outcome hprocess houtcome]⟩
  · by_cases h : BlamesTrace ended
    · obtain ⟨code, detail, houtcome⟩ := exists_process_of_blamesTrace h
      exact ⟨_, runIn_runTraced_of_outcome hprocess houtcome, .inl ⟨h, code, detail, rfl⟩⟩
    · rcases exists_of_not_blamesTrace hfailed h with
        ⟨error, hended, hfound, houtcome⟩ | ⟨limit, hended, houtcome⟩
      · exact ⟨_, runIn_runTraced_of_outcome hprocess houtcome,
          .inr (.inl ⟨error, hended, hfound, rfl⟩)⟩
      · exact ⟨_, runIn_runTraced_of_outcome hprocess houtcome, .inr (.inr ⟨limit, hended, rfl⟩)⟩
  · rintro stdout stderr rfl written w₁ hsave
    rw [runIn_runTraced_of_exited hprocess]
    cases written with
    | ok _ => exact exists_of_saveOutput hsave
    | error e => exact runIn_saveOutput_of_error hsave

/-- A process that is not found, one that exits with another code and one that exits with zero, in
a world where the log file goes into a folder that is not there. -/
theorem ends_runTraced_oldTrace :
    (∃ fault, ((runTraced (.ofString "/") newLogSettings ["a.js"] : Session Path).runIn
      (oldTrace (.refused ⟨.missing, some (wide "node")⟩))).1 = .error (.trace fault)) ∧
    (∃ e, (runTraced (.ofString "/") newLogSettings ["a.js"] : Session Path).runIn
      (oldTrace (.exited 3 none none)) =
        (.error e, afterProcess (oldTrace (.exited 3 none none)) (.ofString "/") newLogSettings
          ["a.js"] (oldTrace .timedOut).tree)) ∧
    ∃ w', (runTraced (.ofString "/") newLogSettings ["a.js"] : Session Path).runIn
        (oldTrace (.exited 0 none (some ['b']))) = (.ok (.ofString "/logs/new/out.txt"), w') ∧
      (oldTrace .timedOut).tree.Saved w'.tree (.ofString "/logs/new/out.txt")
        (Utf8.encode ['b']) := by
  have hprocess (ended : ProcessEnd) : (oldTrace ended).process
      (startOf (.ofString "/") newLogSettings ["a.js"]) (oldTrace ended).tree =
        (ended, (oldTrace .timedOut).tree) := rfl
  refine ⟨?_, ?_, ?_⟩
  · exact (ends_runTraced (hprocess (.refused ⟨.missing, some (wide "node")⟩))).1.mpr rfl
  · obtain ⟨e, he, -⟩ := (ends_runTraced (hprocess (.exited 3 none none))).2.1
      (by rintro stdout stderr ⟨⟩)
    exact ⟨e, he⟩
  · obtain ⟨w₁, hw₁⟩ := exists_runIn_eq
      (w := afterProcess (oldTrace (.exited 0 none (some ['b']))) (.ofString "/") newLogSettings
        ["a.js"] (oldTrace .timedOut).tree)
      (s := save (.ofString "/logs/new/out.txt") ['b']) (a := ()) (by decide +kernel)
    exact (ends_runTraced (hprocess (.exited 0 none (some ['b'])))).2.2 none (some ['b']) rfl
      (.ok ()) w₁ hw₁

/-- **A command that may not be started** is no fault of the trace: the script ends in a fault of
the host, although no process has run. -/
theorem runTraced_denied :
    ((oldTrace (.refused ⟨.denied, some (wide "node")⟩)).process
      (startOf (.ofString "/") newLogSettings ["a.js"])
      (oldTrace (.refused ⟨.denied, some (wide "node")⟩)).tree).1 =
        .refused ⟨.denied, some (wide "node")⟩ ∧
    ((runTraced (.ofString "/") newLogSettings ["a.js"] : Session Path).runIn
      (oldTrace (.refused ⟨.denied, some (wide "node")⟩))).1 =
        .error (.host ⟨.denied, some (wide "node")⟩) ∧
    ∀ fault, ((runTraced (.ofString "/") newLogSettings ["a.js"] : Session Path).runIn
      (oldTrace (.refused ⟨.denied, some (wide "node")⟩))).1 ≠ .error (.trace fault) := by
  refine ⟨rfl, rfl, fun fault h => ?_⟩
  cases h

end Request

/-! ### What is said of a process -/

namespace TraceError

/-- What is said of a process, where the last line of its errors has been found. -/
theorem message_of_lastLine? {command : List WideText} {code : Int} {stderr detail : Text}
    (h : Text.lastLine? stderr = some detail) : (process command code stderr).message =
      s!"Traced command exited with {code}" ++
        if detail.isEmpty then "" else ": " ++ String.ofList detail := by
  obtain rfl : Text.lastLine stderr = detail := by rw [Text.lastLine, h, Option.getD_some]
  rfl

/-- **What is said of a process that has failed** is its code, and the last line of its errors that
has more than white space, but for white space at the ends of that line. Looking for the line finds
one in every text that is not blank, and nothing more is said where the text is blank. -/
theorem message_process (command : List WideText) (code : Int) (stderr : Text) :
    ∃ detail, Text.lastLine? stderr = some detail ∧
      if Text.isBlank stderr then
        (process command code stderr).message = s!"Traced command exited with {code}"
      else
        (process command code stderr).message =
            s!"Traced command exited with {code}: " ++ String.ofList detail ∧
          detail ≠ [] ∧ Text.IsLastShown stderr detail := by
  by_cases hblank : Text.isBlank stderr = true
  · have hlast := Text.lastLine?_of_isBlank hblank
    refine ⟨[], hlast, ?_⟩
    rw [if_pos hblank, message_of_lastLine? hlast]
    exact String.append_empty
  · obtain ⟨detail, hlast, hshown⟩ := Text.exists_lastLine? (Bool.eq_false_iff.mpr hblank)
    obtain ⟨c, hends, -⟩ := hshown.ends
    have hne : detail ≠ [] := List.ne_nil_of_mem (List.mem_of_getLast? hends)
    refine ⟨detail, hlast, ?_⟩
    rw [if_neg hblank, message_of_lastLine? hlast, if_neg (by simpa using hne)]
    exact ⟨String.append_assoc.symm, hne, hshown⟩

/-- A vertical tab ends a line, and a carriage return with a newline ends one. -/
example : (process [] 3 "boom\r\n at x \x0b\n ".toList).message =
    "Traced command exited with 3:  at x" := by decide

end TraceError

end InlineReport
