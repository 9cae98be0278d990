import InlineReport.Proofs.Command.Trace
import InlineReport.Proofs.Host.Tree
import InlineReport.Proofs.View.Showable

/-!
# What a report leaves behind

A report is written last: the settings and the trace are read before, and so is the model made,
and none of that changes anything but the log. What can go wrong while a report is written is no
fault of the trace (`Request.faultless_writeAll`). So **the code two is a promise**: if a report
ends with it, no file and no folder is other than it was.

A run has a process in front of its report. A process that did not end well is the end of the
run: the world is then what the process has left, with a line or two in the log, and it does not
matter which traces and reports are lying about (`Request.runIn_performRun_of_outcome`). After a
process that did end well, what it has printed is written to a file; that file is all that is
new if the trace is at fault. All of this together is `Request.leaves_of_refused`.
-/

namespace InlineReport

namespace Session

/-! ### Worlds that differ in their log -/

/-- Whether all that is new in a world are lines at the end of its log. -/
def OnlyLogs (w w' : World) : Prop := ∃ lines, w' = { w with log := w.log ++ lines }

instance : IsPreorder World OnlyLogs where
  refl w := ⟨[], by rw [List.append_nil]⟩
  trans := by
    rintro w _ _ ⟨lines, rfl⟩ ⟨more, rfl⟩
    exact ⟨lines ++ more, by rw [List.append_assoc]⟩

end Session

namespace Request

open Session

variable {w w' w₁ : World} {folder : Path} {s : Settings} {model : Model} {e : Failure}

/-! ### Before a report -/

/-- The folder and the settings of a report. -/
def prepare (folder : String) (flags : ReportFlags) : Session (Path × Settings) := do
  let folder ← folderAt folder
  return (folder, ← settingsFor folder flags)

theorem onlyLogs_prepare (folder : String) (flags : ReportFlags) :
    (prepare folder flags).Within OnlyLogs := by
  have hfolder : (folderAt folder : Session Path).Within OnlyLogs := by
    intro w
    rw [folderAt, runIn_resolve]
    exact refl w
  have hsettings (folder : Path) :
      (settingsFor folder flags : Session Settings).Within OnlyLogs := by
    intro w
    obtain ⟨lines, hrun⟩ := Settings.runIn_settingsFor folder flags w
    exact ⟨lines, by rw [hrun]⟩
  exact hfolder.bind fun folder => (hsettings folder).bind fun s => within_pure _

theorem performReport_eq (folder : String) (flags : ReportFlags) :
    (performReport folder flags : Session Nat) =
      prepare folder flags >>= fun ready => reporting (writeReports ready.1 ready.2) := by
  simp only [performReport, prepare, bind_assoc, pure_bind]

/-- The arguments of a script without two dashes in front of it. -/
def scriptOf (script : List String) : List String :=
  if script.head? = some "--" then script.tail else script

theorem performRun_eq (folder : String) (flags : ReportFlags) {script : List String}
    (hscript : scriptOf script ≠ []) :
    (performRun folder flags script : Session Nat) =
      prepare folder flags >>= fun ready => reporting
        (runTraced ready.1 ready.2 (scriptOf script) >>= fun _ =>
          writeReports ready.1 ready.2) := by
  simp only [performRun, prepare, bind_assoc, pure_bind]
  refine congrArg _ (funext fun folder => congrArg _ (funext fun s => ?_))
  split
  next hnil => exact absurd hnil hscript
  next => rfl

/-! ### The end of a report -/

/-- The code that a report ends with after a failure, and the last line of its log. -/
def ending : Failure → Option (Nat × LogLine)
  | .host e => some (1, { level := .error, source := .command,
                          message := wide ("Cannot read trace files: " ++ e.message) })
  | .trace e => some (2, { level := .error, source := .command, message := wide e.message })
  | .overrun _ => none

variable {make : Session Model}

theorem runIn_reporting_of_ok (h : make.runIn w = (.ok model, w')) :
    (reporting make).runIn w = (.ok 0, { w' with
      log := w'.log ++
        [{ level := .info, source := .command, message := wide (overview model) }] }) := by
  rw [reporting, runIn_tryCatch, runIn_bind_of_ok h]
  rfl

theorem runIn_reporting_of_error (h : make.runIn w = (.error e, w')) :
    (reporting make).runIn w = match ending e with
      | some (code, line) => (.ok code, { w' with log := w'.log ++ [line] })
      | none => (.error e, w') := by
  rw [reporting, runIn_tryCatch, runIn_bind_of_error h]
  cases e <;> rfl

/-- **The code two** says that the trace was at fault. -/
theorem exists_of_reporting_eq_two (h : (reporting make).runIn w = (.ok 2, w')) :
    ∃ e w₁, make.runIn w = (.error (.trace e), w₁) ∧ OnlyLogs w₁ w' := by
  rcases hrun : make.runIn w with ⟨e | model, w₁⟩
  · rw [runIn_reporting_of_error hrun] at h
    cases e with
    | trace e =>
      obtain ⟨-, rfl⟩ := Prod.mk.inj h
      exact ⟨e, w₁, rfl, [_], rfl⟩
    | host e => cases h
    | overrun limit => cases h
  · rw [runIn_reporting_of_ok hrun] at h
    cases h

/-! ### Writing reports -/

/-- Writes the reports on a model. -/
def writeAll (folder : Path) (s : Settings) (model : Model) : Session Model := do
  writePage (pathIn folder s.htmlPath) model s.title
  match s.jsonPath with
  | none | some [] => return model
  | some path =>
    let lim ← Host.limits
    writeReport "JSON" (pathIn folder path) ((summary lim model).map (·.toJson.render))
    return model

theorem writeReports_eq (folder : Path) (s : Settings) :
    (writeReports folder s : Session Model) = readModel folder s >>= writeAll folder s := rfl

theorem faultless_orThrow {α : Type} {x : Except Failure α}
    (h : ∀ fault, x ≠ .error (.trace fault)) : (orThrow x : Session α).Faultless := by
  intro w fault
  rw [runIn_orThrow]
  exact h fault

theorem faultless_writeReport (what : String) (path : Path) {report : Except Failure Text}
    (h : ∀ fault, report ≠ .error (.trace fault)) :
    (writeReport what path report : Session Unit).Faultless :=
  (faultless_makeFolders _).bind fun _ => (faultless_orThrow h).bind fun text =>
    (faultless_writeText path text).bind fun _ => faultless_log _

/-- **Writing reports** never finds fault with the trace of the model. -/
theorem faultless_writeAll (hm : Model.Finished model) (folder : Path) (s : Settings) :
    (writeAll folder s model).Faultless := by
  have hpage (lim : Limits) (title : String) (fault : TraceError) :
      View.page lim model title ≠ .error (.trace fault) :=
    fun h => (View.tooGreat_of_page_eq_error hm h).ne_trace fault rfl
  have hsummary (lim : Limits) (fault : TraceError) :
      (summary lim model).map (·.toJson.render) ≠ .error (.trace fault) := by
    rcases Summary.exists_summary_or hm with ⟨s, hs⟩ | ⟨hs, -⟩ <;> rw [hs]
    · exact fun h => nomatch h
    · exact fun h => nomatch h
  have hpage : (writePage (pathIn folder s.htmlPath) model s.title : Session Unit).Faultless := by
    refine faultless_limits.bind fun lim => ?_
    split
    · exact faultless_writeReport "HTML" _ (hpage lim _)
    · exact (faultless_makeFolders _).bind fun _ =>
        (faultless_orThrow (hpage lim "")).bind fun _ =>
          (faultless_writeText _ []).bind fun _ => faultless_throw_overrun _
  refine hpage.bind fun _ => ?_
  split
  · exact faultless_pure model
  · exact faultless_pure model
  · exact faultless_limits.bind fun lim =>
      (faultless_writeReport "JSON" _ (hsummary lim)).bind fun _ => faultless_pure model

/-- **A trace that is at fault** is found to be so before anything is written. -/
theorem onlyLogs_of_writeReports_eq_trace {fault : TraceError}
    (h : (writeReports folder s : Session Model).runIn w = (.error (.trace fault), w')) :
    OnlyLogs w w' := by
  obtain ⟨lines, hread⟩ := runIn_readModel folder s w
  rw [writeReports_eq] at h
  cases hmodel : w.tree.modelAt folder s with
  | error e =>
    rw [hmodel] at hread
    rw [runIn_bind_of_error hread] at h
    obtain ⟨-, rfl⟩ := Prod.mk.inj h
    exact ⟨lines, rfl⟩
  | ok model =>
    rw [hmodel] at hread
    rw [runIn_bind_of_ok hread] at h
    obtain ⟨texts, -, hbuilt⟩ := bind_eq_ok_iff.mp hmodel
    have hnever := faultless_writeAll (Model.finished_of_buildModel hbuilt) folder s
      { w with log := w.log ++ lines } fault
    rw [h] at hnever
    exact absurd rfl hnever

/-- A trace that cannot be read is not reported on. -/
theorem runIn_writeReports_of_unread (h : w.tree.textsAt folder s = .error e) :
    (writeReports folder s : Session Model).runIn w = (.error e, w) := by
  rw [writeReports_eq]
  refine runIn_bind_of_error ?_
  rw [readModel, runIn_bind_of_error]
  rw [runIn_readTexts, h]

/-! ### Traced processes -/

/-- How the process of a run is started. -/
def startOf (folder : Path) (s : Settings) (script : List String) : ProcessStart :=
  { command := s.traceCommand script, folder, timeout := s.timeout }

/-- The line of the log that tells of a process. -/
def startLine (s : Settings) (script : List String) : LogLine :=
  { level := .info, source := .runner
    message := wide "Running " ++ (wide " ").intercalate (s.traceCommand script) }

/-- The world after a process that has left a tree. -/
def afterProcess (w : World) (folder : Path) (s : Settings) (script : List String) (t : Tree) :
    World :=
  { w with
    tree := t
    started := w.started ++ [startOf folder s script]
    log := w.log ++ [startLine s script] }

/-- The code that a run ends with after a process that did not exit with the code zero. There is
none for a process that has failed for a reason of its own. -/
def codeFor? : ProcessEnd → Option Nat
  | .exited .. => some 2
  | .timedOut => some 2
  | .refused error => some (if error.fault.isMissing then 2 else 1)
  | .failed _ => none

/-- A process that did not exit with the code zero is the end of a report. -/
theorem exists_ending_of_outcome (start : ProcessStart) {ended : ProcessEnd} {code : Nat}
    (h : ∀ stdout stderr, ended ≠ .exited 0 stdout stderr) (hcode : codeFor? ended = some code) :
    ∃ e line, ended.outcome start = .error e ∧ ending e = some (code, line) := by
  cases ended with
  | exited exitCode stdout stderr =>
    obtain rfl := Option.some.inj hcode
    have hne : exitCode ≠ 0 := by
      rintro rfl
      exact h stdout stderr rfl
    exact ⟨_, _, if_neg hne, rfl⟩
  | timedOut =>
    obtain rfl := Option.some.inj hcode
    exact ⟨_, _, rfl, rfl⟩
  | refused error =>
    obtain rfl := Option.some.inj hcode
    by_cases hmissing : error.fault.isMissing = true
    · exact ⟨_, _, if_pos hmissing, by rw [if_pos hmissing]; rfl⟩
    · exact ⟨_, _, if_neg hmissing, by rw [if_neg hmissing]; rfl⟩
  | failed limit => cases hcode

/-- Writes what a process has printed. -/
def saveOutput (path : Path) (text : Text) : Session Path := do
  Host.makeFolders path.parent
  Host.writeText path text
  Host.log { level := .debug, source := .runner, message := wide "Wrote run log to " ++ path.text }
  return path

variable {script : List String} {ended : ProcessEnd} {t : Tree}

/-- **A traced process** changes the tree as it does, and only what it has printed is written,
if it ended well. -/
theorem runIn_runTraced (hprocess : w.process (startOf folder s script) w.tree = (ended, t)) :
    (runTraced folder s script : Session Path).runIn w =
      (match ended.outcome (startOf folder s script) with
        | .error e => throw e
        | .ok (stdout, stderr) => saveOutput (pathIn folder s.logFile) (stdout ++ stderr) :
          Session Path).runIn (afterProcess w folder s script t) := by
  unfold runTraced
  rw [runIn_bind_of_ok (runIn_log _), runIn_bind_of_ok (runIn_start _)]
  change (match (w.process (startOf folder s script) w.tree).1.outcome
      (startOf folder s script) with
    | .error e => throw e
    | .ok (stdout, stderr) => saveOutput (pathIn folder s.logFile) (stdout ++ stderr) :
      Session Path).runIn
        (afterProcess w folder s script (w.process (startOf folder s script) w.tree).2) = _
  rw [hprocess]

theorem faultless_saveOutput (path : Path) (text : Text) : (saveOutput path text).Faultless :=
  (faultless_makeFolders _).bind fun _ => (faultless_writeText path text).bind fun _ =>
    (faultless_log _).bind fun _ => faultless_pure path

theorem saveOutput_eq (path : Path) (text : Text) :
    saveOutput path text = save path text >>= fun _ => do
      Host.log { level := .debug, source := .runner
                 message := wide "Wrote run log to " ++ path.text }
      return path := by
  rw [saveOutput, save, bind_assoc]

theorem saved_of_saveOutput {path path' : Path} {text : Text}
    (h : (saveOutput path text).runIn w = (.ok path', w')) :
    w.tree.Saved w'.tree path (Utf8.encode text) := by
  rw [saveOutput_eq] at h
  obtain ⟨_, w₁, hsave, hlog⟩ := runIn_bind_eq_ok_iff.mp h
  obtain ⟨tree, rfl, hsaved⟩ := exists_of_save hsave
  obtain ⟨-, rfl⟩ := Prod.mk.inj hlog
  exact hsaved

/-! ### Runs that come to nothing -/

/-- **A process that did not end well** is all that a run leaves, with a line in the log that
tells of its start, and another one if there is a code for the run to end with. -/
theorem runIn_performRun_of_outcome {flags : ReportFlags} {name : String}
    (hprepare : (prepare name flags).runIn w = (.ok (folder, s), w₁))
    (hscript : scriptOf script ≠ [])
    (hprocess : w₁.process (startOf folder s (scriptOf script)) w₁.tree = (ended, t))
    (houtcome : ended.outcome (startOf folder s (scriptOf script)) = .error e) :
    (performRun name flags script : Session Nat).runIn w = match ending e with
      | some (code, line) => (.ok code, { afterProcess w₁ folder s (scriptOf script) t with
          log := w₁.log ++ [startLine s (scriptOf script), line] })
      | none => (.error e, afterProcess w₁ folder s (scriptOf script) t) := by
  have htraced := runIn_runTraced hprocess
  rw [houtcome, runIn_throw] at htraced
  rw [performRun_eq name flags hscript, runIn_bind_of_ok hprepare,
    runIn_reporting_of_error (runIn_bind_of_error htraced)]
  cases ending e with
  | none => rfl
  | some code => simp only [afterProcess, List.append_assoc, List.cons_append, List.nil_append]

/-- **A trace that is at fault after a process** leaves what the process has printed, and no
report. -/
theorem saved_of_performRun_eq_two {flags : ReportFlags} {name : String}
    {stdout stderr : Option Text}
    (hprepare : (prepare name flags).runIn w = (.ok (folder, s), w₁))
    (hscript : scriptOf script ≠ [])
    (hprocess : w₁.process (startOf folder s (scriptOf script)) w₁.tree =
      (.exited 0 stdout stderr, t))
    (h : (performRun name flags script : Session Nat).runIn w = (.ok 2, w')) :
    t.Saved w'.tree (pathIn folder s.logFile)
      (Utf8.encode (stdout.getD [] ++ stderr.getD [])) := by
  have htraced := runIn_runTraced hprocess
  change _ = (saveOutput _ _).runIn _ at htraced
  rw [performRun_eq name flags hscript, runIn_bind_of_ok hprepare] at h
  obtain ⟨fault, w₂, hmake, hlogs⟩ := exists_of_reporting_eq_two h
  rcases hsave : (runTraced folder s (scriptOf script) : Session Path).runIn w₁ with ⟨e | path, w₃⟩
  · -- the output of a process is no fault of a trace
    rw [runIn_bind_of_error hsave] at hmake
    cases hmake
    exact absurd (by rw [← htraced, hsave]) (faultless_saveOutput _ _ _ fault)
  · rw [runIn_bind_of_ok hsave] at hmake
    rw [htraced] at hsave
    obtain ⟨lines, rfl⟩ := trans_of OnlyLogs (onlyLogs_of_writeReports_eq_trace hmake) hlogs
    exact saved_of_saveOutput hsave

/-- **A report that finds fault with a trace** changes nothing. -/
theorem onlyLogs_of_performReport_eq_two {flags : ReportFlags} {name : String}
    (h : (performReport name flags : Session Nat).runIn w = (.ok 2, w')) : OnlyLogs w w' := by
  have hlogs := onlyLogs_prepare name flags w
  rw [performReport_eq] at h
  obtain ⟨⟨folder, s⟩, w₁, hprepare, h⟩ := runIn_bind_eq_ok_iff.mp h
  rw [hprepare] at hlogs
  obtain ⟨fault, w₂, hmake, hend⟩ := exists_of_reporting_eq_two h
  exact trans_of OnlyLogs hlogs
    (trans_of OnlyLogs (onlyLogs_of_writeReports_eq_trace hmake) hend)

/-- **A trace that cannot be read** changes nothing. -/
theorem onlyLogs_of_textsAt_eq_error {flags : ReportFlags} {name : String}
    (hprepare : (prepare name flags).runIn w = (.ok (folder, s), w₁))
    (hunread : w₁.tree.textsAt folder s = .error e) :
    ∃ w', OnlyLogs w₁ w' ∧ ((performReport name flags : Session Nat).runIn w = (.ok 1, w') ∨
      ∃ limit, (performReport name flags : Session Nat).runIn w =
        (.error (.overrun limit), w')) := by
  have hmake := runIn_writeReports_of_unread hunread
  rw [performReport_eq, runIn_bind_of_ok hprepare, runIn_reporting_of_error hmake]
  cases e with
  | host e => exact ⟨_, ⟨[_], rfl⟩, .inl rfl⟩
  | trace fault => exact absurd hunread (Tree.textsAt_ne_trace _ _ _ _)
  | overrun limit => exact ⟨_, refl w₁, .inr ⟨limit, rfl⟩⟩

/-- **What is left where no report is made.** A report that ends with the code two, or for which
the trace cannot be read, leaves the world with more lines in its log and nothing else. A run
whose process did not exit with the code zero leaves the tree as the process has left it, and has
looked at nothing in it, whether there is a code for its end or not; and after a process that did,
a run that ends with the code two has written what the process has printed, with the folders that
this needs. -/
theorem leaves_of_refused (w : World) (name : String) (flags : ReportFlags)
    (script : List String) :
    (∀ w', (performReport name flags : Session Nat).runIn w = (.ok 2, w') → OnlyLogs w w') ∧
    ∀ folder s w₁, (prepare name flags).runIn w = (.ok (folder, s), w₁) →
      OnlyLogs w w₁ ∧
      (∀ e, w.tree.textsAt folder s = .error e → ∃ w', OnlyLogs w w' ∧
        ((performReport name flags : Session Nat).runIn w = (.ok 1, w') ∨
          ∃ limit, (performReport name flags : Session Nat).runIn w =
            (.error (.overrun limit), w'))) ∧
      (scriptOf script ≠ [] → ∀ ended t,
        w.process (startOf folder s (scriptOf script)) w.tree = (ended, t) →
        ((∀ stdout stderr, ended ≠ .exited 0 stdout stderr) →
          (∀ code, codeFor? ended = some code → ∃ line,
            (performRun name flags script : Session Nat).runIn w =
              (.ok code, { afterProcess w₁ folder s (scriptOf script) t with
                log := w₁.log ++ [startLine s (scriptOf script), line] })) ∧
          ∀ limit, ended = .failed limit →
            (performRun name flags script : Session Nat).runIn w =
              (.error (.overrun limit), afterProcess w₁ folder s (scriptOf script) t)) ∧
        ∀ stdout stderr w', ended = .exited 0 stdout stderr →
          (performRun name flags script : Session Nat).runIn w = (.ok 2, w') →
          t.Saved w'.tree (pathIn folder s.logFile)
            (Utf8.encode (stdout.getD [] ++ stderr.getD []))) := by
  refine ⟨fun w' => onlyLogs_of_performReport_eq_two, fun folder s w₁ hprepare => ?_⟩
  have hlogs := onlyLogs_prepare name flags w
  rw [hprepare] at hlogs
  obtain ⟨lines, rfl⟩ := hlogs
  refine ⟨⟨lines, rfl⟩, fun e hunread => ?_,
    fun hscript ended t hprocess => ⟨fun hfailed => ⟨fun code hcode => ?_, ?_⟩, ?_⟩⟩
  · obtain ⟨w', hlogs, hresult⟩ := onlyLogs_of_textsAt_eq_error hprepare hunread
    exact ⟨w', trans_of OnlyLogs ⟨lines, rfl⟩ hlogs, hresult⟩
  · obtain ⟨e, line, houtcome, hending⟩ := exists_ending_of_outcome _ hfailed hcode
    exact ⟨line, by rw [runIn_performRun_of_outcome hprepare hscript hprocess houtcome, hending]⟩
  · rintro limit rfl
    exact runIn_performRun_of_outcome hprepare hscript hprocess rfl
  · rintro stdout stderr w' rfl h
    exact saved_of_performRun_eq_two hprepare hscript hprocess h

/-- A world with an old report and an old trace, whose source stream is malformed. Its processes
change nothing, and end in one way. -/
def oldTrace (ended : ProcessEnd) : World :=
  .usual { entries := [
    ([wide "code.asm"], .file (Utf8.encode "--- FUNCTION SOURCE\n".toList)),
    ([wide "hg.cfg"], .file []),
    ([wide "logs"], .folder),
    ([wide "ir.html"], .file (Utf8.encode "old".toList))] } (.ofString "/") fun _ t => (ended, t)

/-- A command line that names a file for what is printed, in a folder that is not there. -/
def newLogFile : ReportFlags where
  logFile := some "logs/new/out.txt"

/-- The settings that come of it. -/
def newLogSettings : Settings where
  logFile := wide "logs/new/out.txt"

/-- The script that is run. -/
def oneScript : List String := ["--", "a.js"]

theorem leaves_of_refused_oldTrace :
    (∃ w', (performReport "." { logFile := some "hg.cfg" } : Session Nat).runIn
        (oldTrace .timedOut) = (.ok 2, w') ∧ OnlyLogs (oldTrace .timedOut) w') ∧
    (∃ w', OnlyLogs (oldTrace .timedOut) w' ∧
      ((performReport "." newLogFile : Session Nat).runIn (oldTrace .timedOut) = (.ok 1, w') ∨
        ∃ limit, (performReport "." newLogFile : Session Nat).runIn (oldTrace .timedOut) =
          (.error (.overrun limit), w'))) ∧
    (∃ (w₁ : World) (line : LogLine), (performRun "." newLogFile oneScript : Session Nat).runIn
        (oldTrace (.exited 3 none none)) =
          (.ok 2, { afterProcess w₁ (.ofString "/") newLogSettings ["a.js"]
              (oldTrace .timedOut).tree with
            log := w₁.log ++ [startLine newLogSettings ["a.js"], line] })) ∧
    ∃ w', (performRun "." newLogFile oneScript : Session Nat).runIn
        (oldTrace (.exited 0 (some ['a']) (some ['b']))) = (.ok 2, w') ∧
      (oldTrace .timedOut).tree.Saved w'.tree (.ofString "/logs/new/out.txt")
        (Utf8.encode ['a', 'b']) := by
  have hprepare (ended : ProcessEnd) : ∃ w₁, (prepare "." newLogFile).runIn (oldTrace ended) =
      (.ok (.ofString "/", newLogSettings), w₁) :=
    exists_runIn_eq rfl
  refine ⟨?_, ?_, ?_, ?_⟩
  · obtain ⟨w', h⟩ := exists_runIn_eq (w := oldTrace .timedOut) (a := 2)
      (s := performReport "." { logFile := some "hg.cfg" }) (by decide +kernel)
    exact ⟨w', h, (leaves_of_refused _ _ _ []).1 w' h⟩
  · obtain ⟨w₁, hw₁⟩ := hprepare .timedOut
    have hunread : (oldTrace .timedOut).tree.textsAt (.ofString "/") newLogSettings =
        .error (HostError.mk .missing (some (wide "/logs/new/out.txt"))) := by rfl
    exact ((leaves_of_refused _ _ _ []).2 _ _ _ hw₁).2.1 _ hunread
  · obtain ⟨w₁, hw₁⟩ := hprepare (.exited 3 none none)
    obtain ⟨line, hline⟩ := ((((leaves_of_refused _ _ _ oneScript).2 _ _ _ hw₁).2.2 (by decide)
      _ _ rfl).1 (by rintro stdout stderr ⟨⟩)).1 2 rfl
    exact ⟨w₁, line, hline⟩
  · obtain ⟨w₁, hw₁⟩ := hprepare (.exited 0 (some ['a']) (some ['b']))
    obtain ⟨w', h⟩ := exists_runIn_eq (w := oldTrace (.exited 0 (some ['a']) (some ['b'])))
      (a := 2) (s := performRun "." newLogFile oneScript) (by decide +kernel)
    exact ⟨w', h, (((leaves_of_refused _ _ _ oneScript).2 _ _ _ hw₁).2.2 (by decide)
      _ _ rfl).2 _ _ w' rfl h⟩

end Request

end InlineReport
