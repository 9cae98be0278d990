import InlineReport.Proofs.Command.Report
import InlineReport.Proofs.Model.Refused

/-!
# The code that a report ends with

A report on a trace that can be read, with places for its files, is meant to end with one of two
codes: zero if there is a report, two if the trace is at fault. Its log ends with what there is to
say of the model, or with the fault. What can happen besides is said here for every trace and all
limits (`Request.Verdict`). **There are two more ways**, and each of them comes
from a magnitude that the trace has and nothing checks: a number with more digits than are read,
and a model that cannot be shown, since a copy is placed too far out or too deep. Then the report
ends without a code (`Request.no_code_farCopy`).
-/

namespace InlineReport

/-! ### Places for reports -/

/-- Whether files can be written at paths, one after the other, whatever their texts are. -/
def Tree.Takes : Tree → List Path → Prop
  | _, [] => True
  | t, p :: more => ∀ (text : Text) (w : World), w.tree = t →
      ∃ tree, (Session.save p text).runIn w = (.ok (), { w with tree }) ∧ Takes tree more

namespace Request

open Session

variable {w w₁ : World} {folder p : Path} {more : List Path} {s : Settings} {model : Model}
  {e : Failure} {title : Text}

/-- The files of the reports. -/
def outputs (folder : Path) (s : Settings) : List Path :=
  pathIn folder s.htmlPath ::
    match s.jsonPath with
    | none | some [] => []
    | some path => [pathIn folder path]

theorem writeReport_eq (what : String) (p : Path) (text : Text) :
    (writeReport what p (.ok text) : Session Unit) =
      save p text >>= fun _ => tell .info (wide s!"Wrote {what} report to " ++ p.text) := by
  simp only [writeReport, orThrow, save, bind_assoc, pure_bind]

/-- A report that there is can be written. -/
theorem exists_runIn_writeReport (hout : w.tree.Takes (p :: more)) (what : String) (text : Text) :
    ∃ w', (writeReport what p (.ok text) : Session Unit).runIn w = (.ok (), w') ∧
      w'.limits = w.limits ∧ w'.tree.Takes more := by
  obtain ⟨tree, hsave, htakes⟩ := hout text w rfl
  have hrun := runIn_bind_of_ok (f := fun _ =>
    tell .info (wide s!"Wrote {what} report to " ++ p.text)) hsave
  rw [← writeReport_eq, tell, runIn_log] at hrun
  exact ⟨_, hrun, rfl, htakes⟩

/-- A report that there is not is not written. -/
theorem exists_runIn_writeReport_error (hout : w.tree.Takes (p :: more)) (what : String)
    (e : Failure) : ∃ w', (writeReport what p (.error e) : Session Unit).runIn w =
      (.error e, w') := by
  obtain ⟨tree, hsave, -⟩ := hout [] w rfl
  obtain ⟨_, w', hmake, -⟩ := runIn_bind_eq_ok_iff.mp hsave
  refine ⟨w', ?_⟩
  rw [writeReport, runIn_bind_of_ok hmake]
  rfl

theorem runIn_writePage (htitle : WideText.text? s.title = some title) :
    (writePage p model s.title : Session Unit).runIn w =
      (writeReport "HTML" p (View.page w.limits model (String.ofList title)) :
        Session Unit).runIn w := by
  rw [writePage, runIn_bind_of_ok runIn_limits, htitle]

/-- The page is written of a model that can be shown. -/
theorem exists_runIn_writePage (hm : Model.Finished model)
    (hshowable : View.Showable w.limits model) (htitle : WideText.text? s.title = some title)
    (hout : w.tree.Takes (p :: more)) :
    ∃ w', (writePage p model s.title : Session Unit).runIn w = (.ok (), w') ∧
      w'.limits = w.limits ∧ w'.tree.Takes more := by
  obtain ⟨out, hpage⟩ := (View.exists_page_iff hm (String.ofList title)).mpr hshowable
  rw [runIn_writePage htitle, hpage]
  exact exists_runIn_writeReport hout "HTML" out

theorem exists_runIn_writePage_error (hm : Model.Finished model)
    (hshowable : ¬ View.Showable w.limits model) (htitle : WideText.text? s.title = some title)
    (hout : w.tree.Takes (p :: more)) :
    ∃ e w', (writePage p model s.title : Session Unit).runIn w = (.error e, w') ∧
      View.TooGreat e := by
  rw [← View.exists_page_iff hm (String.ofList title), ← exists_error_iff] at hshowable
  obtain ⟨e, hpage⟩ := hshowable
  rw [runIn_writePage htitle, hpage]
  obtain ⟨w', hwrite⟩ := exists_runIn_writeReport_error hout "HTML" e
  exact ⟨e, w', hwrite, View.tooGreat_of_page_eq_error hm hpage⟩

/-- **The reports on a model** are written of a model that can be shown. -/
theorem exists_runIn_writeAll (hm : Model.Finished model)
    (hshowable : View.Showable w.limits model) (htitle : WideText.text? s.title = some title)
    (hout : w.tree.Takes (outputs folder s)) :
    ∃ w', (writeAll folder s model).runIn w = (.ok model, w') := by
  obtain ⟨w', hpage, hlimits, hmore⟩ := exists_runIn_writePage hm hshowable htitle hout
  rw [writeAll, runIn_bind_of_ok hpage]
  rcases hjson : s.jsonPath with _ | _ | ⟨c, path⟩
  · exact ⟨w', rfl⟩
  · exact ⟨w', rfl⟩
  · rw [hjson] at hmore
    obtain ⟨summary, hs⟩ := Summary.exists_of_showable hm hshowable
    obtain ⟨w'', hwrite, -⟩ := exists_runIn_writeReport hmore "JSON" summary.toJson.render
    refine ⟨w'', ?_⟩
    simp only
    rw [runIn_bind_of_ok runIn_limits, hlimits, hs]
    exact runIn_bind_of_ok hwrite

theorem exists_runIn_writeAll_error (hm : Model.Finished model)
    (hshowable : ¬ View.Showable w.limits model) (htitle : WideText.text? s.title = some title)
    (hout : w.tree.Takes (outputs folder s)) :
    ∃ e w', (writeAll folder s model).runIn w = (.error e, w') ∧ View.TooGreat e := by
  obtain ⟨e, w', hpage, hgreat⟩ := exists_runIn_writePage_error hm hshowable htitle hout
  exact ⟨e, w', runIn_bind_of_error hpage, hgreat⟩

/-! ### The verdict -/

/-- **What comes of the report on a trace**: a report, a fault of the trace, or neither, which
needs a long run of digits in the trace or a model that cannot be shown. A report and a fault are
the last that is told in the log. -/
inductive Verdict (lim : Limits) (texts : TraceTexts) (w : World) : Except Failure Nat → Prop
  | reported {model : Model} (hbuilt : buildModel texts.code texts.ir texts.log = .ok model)
      (hshowable : View.Showable lim model)
      (hlog : w.log.getLast? = some { level := .info, source := .command
                                      message := wide (overview model) }) :
      Verdict lim texts w (.ok 0)
  | refused {fault : TraceError}
      (hbuilt : buildModel texts.code texts.ir texts.log = .error (.trace fault))
      (hlog : w.log.getLast? = some { level := .error, source := .command
                                      message := wide fault.message }) :
      Verdict lim texts w (.ok 2)
  | unread (hbuilt : buildModel texts.code texts.ir texts.log = .error Overrun.digits)
      (hlong : texts.code.HasLongRun ∨ texts.ir.HasLongRun) :
      Verdict lim texts w (.error Overrun.digits)
  | unshown {model : Model} {e : Failure}
      (hbuilt : buildModel texts.code texts.ir texts.log = .ok model)
      (hshowable : ¬ View.Showable lim model) (hgreat : View.TooGreat e) :
      Verdict lim texts w (.error e)

/-- No code stands for a magnitude. -/
theorem ending_of_tooGreat (h : View.TooGreat e) : ending e = none := by
  rcases h with rfl | rfl | rfl <;> rfl

theorem verdict_performReport {name : String} {flags : ReportFlags} {texts : TraceTexts}
    (hprepare : (prepare name flags).runIn w = (.ok (folder, s), w₁))
    (htexts : w.tree.textsAt folder s = .ok texts)
    (htitle : WideText.text? s.title = some title)
    (hout : w.tree.Takes (outputs folder s)) :
    ∃ result w', (performReport name flags : Session Nat).runIn w = (result, w') ∧
      Verdict w.limits texts w' result := by
  have hlogs := onlyLogs_prepare name flags w
  rw [hprepare] at hlogs
  obtain ⟨lines, rfl⟩ := hlogs
  rw [performReport_eq, runIn_bind_of_ok hprepare]
  obtain ⟨more, hread⟩ := runIn_readModel folder s { w with log := w.log ++ lines }
  have hmodel : w.tree.modelAt folder s = buildModel texts.code texts.ir texts.log := by
    rw [Tree.modelAt, htexts]
    rfl
  rw [hmodel] at hread
  cases hbuilt : buildModel texts.code texts.ir texts.log with
  | error e =>
    rw [hbuilt] at hread
    rw [runIn_reporting_of_error (writeReports_eq folder s ▸ runIn_bind_of_error hread)]
    rcases exists_of_buildModel_eq_error hbuilt with ⟨fault, rfl⟩ | ⟨rfl, hlong⟩
    · exact ⟨_, _, rfl, .refused hbuilt List.getLast?_concat⟩
    · exact ⟨_, _, rfl, .unread hbuilt hlong⟩
  | ok model =>
    have hm := Model.finished_of_buildModel hbuilt
    rw [hbuilt] at hread
    by_cases hshowable : View.Showable w.limits model
    · obtain ⟨w', hwrite⟩ := exists_runIn_writeAll (w := { w with log := w.log ++ lines ++ more })
        hm hshowable htitle hout
      rw [runIn_reporting_of_ok (writeReports_eq folder s ▸ (runIn_bind_of_ok hread).trans hwrite)]
      exact ⟨_, _, rfl, .reported hbuilt hshowable List.getLast?_concat⟩
    · obtain ⟨e, w', hwrite, hgreat⟩ := exists_runIn_writeAll_error
        (w := { w with log := w.log ++ lines ++ more }) hm hshowable htitle hout
      rw [runIn_reporting_of_error
        (writeReports_eq folder s ▸ (runIn_bind_of_ok hread).trans hwrite),
        ending_of_tooGreat hgreat]
      exact ⟨_, _, rfl, .unshown hbuilt hshowable hgreat⟩

theorem Verdict.code_iff {lim : Limits} {texts : TraceTexts} {result : Except Failure Nat}
    (h : Verdict lim texts w result) :
    (result = .ok 0 ∨ result = .ok 2) ↔
      buildModel texts.code texts.ir texts.log ≠ .error Overrun.digits ∧
        ∀ m, buildModel texts.code texts.ir texts.log = .ok m → View.Showable lim m := by
  cases h with
  | reported hbuilt hshowable _ =>
    rw [hbuilt]
    exact iff_of_true (.inl rfl) ⟨by simp, fun m hm => Except.ok.inj hm ▸ hshowable⟩
  | refused hbuilt _ =>
    rw [hbuilt]
    exact iff_of_true (.inr rfl) ⟨by simp, by simp⟩
  | unread hbuilt _ => exact iff_of_false (by simp) fun h => h.1 hbuilt
  | unshown hbuilt hshowable _ => exact iff_of_false (by simp) fun h => hshowable (h.2 _ hbuilt)

/-- **How a report ends.** If the trace can be read and its reports can be written, one of four
things happens, and the code is zero or two just where all numbers can be read and the model, if
there is one, can be shown within the limits of the world. -/
theorem ends_performReport {name : String} {flags : ReportFlags} {texts : TraceTexts}
    (hprepare : (prepare name flags).runIn w = (.ok (folder, s), w₁))
    (htexts : w.tree.textsAt folder s = .ok texts)
    (htitle : WideText.text? s.title = some title)
    (hout : w.tree.Takes (outputs folder s)) :
    ∃ result w', (performReport name flags : Session Nat).runIn w = (result, w') ∧
      Verdict w.limits texts w' result ∧
      ((result = .ok 0 ∨ result = .ok 2) ↔
        buildModel texts.code texts.ir texts.log ≠ .error Overrun.digits ∧
          ∀ m, buildModel texts.code texts.ir texts.log = .ok m → View.Showable w.limits m) := by
  obtain ⟨result, w', hrun, hverdict⟩ := verdict_performReport hprepare htexts htitle hout
  exact ⟨result, w', hrun, hverdict, hverdict.code_iff⟩

/-- A world with a trace of a copy at an offset. -/
def copyTrace (offset : String) : World :=
  .usual { entries := [
    ([wide "code.asm"], .file (Utf8.encode
      ("--- FUNCTION SOURCE (a.js:f) id\x7b0,0\x7d ---\nx\n--- END ---\n" ++
        "--- FUNCTION SOURCE (a.js:g) id\x7b0,1\x7d ---\ny\n--- END ---\n" ++
        "INLINE (g) id\x7b0,1\x7d AS 1 AT <0:" ++ offset ++ ">\n").toList)),
    ([wide "hg.cfg"], .file []),
    ([wide "out.txt"], .file [])] } (.ofString "/") fun _ t => (.timedOut, t)

theorem takes_copyTrace (offset : String) :
    (copyTrace offset).tree.Takes (outputs (.ofString "/") {}) := by
  rintro text ⟨_, workplace, limits, load, process, started, log, output⟩ rfl
  exact ⟨_, rfl, trivial⟩

theorem ends_performReport_nearCopy :
    ∃ texts result w', (copyTrace "0").tree.textsAt (.ofString "/") {} = .ok texts ∧
      (performReport "." {} : Session Nat).runIn (copyTrace "0") = (result, w') ∧
      result = .ok 0 ∧ Verdict .usual texts w' result ∧
      ((result = .ok 0 ∨ result = .ok 2) ↔
        buildModel texts.code texts.ir texts.log ≠ .error Overrun.digits ∧
          ∀ m, buildModel texts.code texts.ir texts.log = .ok m → View.Showable .usual m) := by
  obtain ⟨w₁, hprepare⟩ := exists_runIn_eq (w := copyTrace "0") (s := prepare "." {})
    (a := (.ofString "/", {})) (by decide +kernel)
  obtain ⟨w', hzero⟩ := exists_runIn_eq (w := copyTrace "0") (s := performReport "." {}) (a := 0)
    (by decide +kernel)
  obtain ⟨texts, htexts⟩ : ∃ texts, (copyTrace "0").tree.textsAt (.ofString "/") {} = .ok texts :=
    ⟨_, rfl⟩
  have htitle : WideText.text? ({} : Settings).title = some "JIT inlining report".toList := by rfl
  obtain ⟨result, w'', hrun, hverdict⟩ :=
    ends_performReport hprepare htexts htitle (takes_copyTrace "0")
  obtain ⟨rfl, rfl⟩ := Prod.mk.inj (hzero.symm.trans hrun)
  exact ⟨texts, _, _, htexts, hzero, rfl, hverdict⟩

/-- **A copy that is placed too far out**: the trace can be read and the reports could be written,
but the report ends without a code. -/
theorem no_code_farCopy :
    ∃ w₁ texts, (prepare "." {}).runIn (copyTrace "99999999999999999999") =
        (.ok (.ofString "/", {}), w₁) ∧
      (copyTrace "99999999999999999999").tree.textsAt (.ofString "/") {} = .ok texts ∧
      (copyTrace "99999999999999999999").tree.Takes (outputs (.ofString "/") {}) ∧
      ((performReport "." {} : Session Nat).runIn (copyTrace "99999999999999999999")).1 =
        .error Overrun.indent := by
  obtain ⟨w₁, hprepare⟩ := exists_runIn_eq (w := copyTrace "99999999999999999999")
    (s := prepare "." {}) (a := (.ofString "/", {})) (by decide +kernel)
  exact ⟨w₁, _, hprepare, rfl, takes_copyTrace _, by decide +kernel⟩

end Request

end InlineReport
