import Mathlib.Data.List.Infix
import InlineReport.Proofs.Text.Cutting
import InlineReport.Trace.RefusalLog

/-!
# Run logs with notices among their lines

The compiler writes a notice on a line of its own (`RefusalLog.noticeText`), and the program that
runs writes what it likes between the notices. The three fields of a notice end where the literal
behind them is found first, so what a field must not hold is that literal (`RefusalLog.Fair`).
Only one of the literals overlaps itself, in the blanks at its two ends: a callee must not end in
` called from` either, and for that it is enough that it does not hold the words.

Whatever else the fields hold, the notice is read back (`RefusalLog.notice?_noticeText`), and
**a run log is read back as it was written** (`RefusalLog.scanRefusals_text`), but for the notices
that are about the place of the call.
-/

namespace InlineReport

/-- Whether a reason is about the place of a call, by what it holds. -/
theorem isPlaceReason_eq_false_iff {reason : String} :
    isPlaceReason reason = false ↔
      ∀ phrase ∈ RefusalLog.placePhrases, ¬ phrase.toList <:+: reason.toList := by
  rw [isPlaceReason, List.any_eq_false]
  exact forall₂_congr fun phrase _ => not_congr Text.hasPart_iff

namespace RefusalLog

open Text

/-! ### Notices and lines -/

/-- `Did not inline CALLEE called from CALLER (REASON).` -/
def noticeText (r : Refusal) : Text :=
  "Did not inline ".toList ++ (r.callee.toList ++ (" called from ".toList ++
    (r.caller.toList ++ (" (".toList ++ (r.reason.toList ++ ").".toList)))))

/-- A line of a run log. -/
inductive Line
  | noise (text : Text)
  | notice (r : Refusal)

/-- The text of a line. -/
def Line.text : Line → Text
  | noise s => s
  | notice r => noticeText r

/-- The notice that a line is, if it is one. -/
def Line.notice? : Line → Option Refusal
  | noise _ => none
  | notice r => some r

/-- A run log, line by line. A log that ends its last line has an empty line behind it. -/
def text (ls : List Line) : Text := ['\n'].intercalate (ls.map Line.text)

/-- What keeps the fields of a notice apart. -/
structure Fair (r : Refusal) : Prop where
  line : '\n' ∉ r.callee.toList ∧ '\n' ∉ r.caller.toList ∧ '\n' ∉ r.reason.toList
  callee : ¬ "called from".toList <:+: r.callee.toList
  caller : ¬ " (".toList <:+: r.caller.toList
  reason : ¬ ").".toList <:+: r.reason.toList

/-- What keeps a line from being taken for something else. -/
def Line.Fair : Line → Prop
  | noise s => ¬ "Did not inline ".toList <:+: s
  | notice r => RefusalLog.Fair r

instance (r : Refusal) : Decidable (Fair r) :=
  decidable_of_iff (('\n' ∉ r.callee.toList ∧ '\n' ∉ r.caller.toList ∧ '\n' ∉ r.reason.toList) ∧
      ¬ "called from".toList <:+: r.callee.toList ∧ ¬ " (".toList <:+: r.caller.toList ∧
      ¬ ").".toList <:+: r.reason.toList)
    ⟨fun ⟨hline, hcallee, hcaller, hreason⟩ => ⟨hline, hcallee, hcaller, hreason⟩,
      fun h => ⟨h.line, h.callee, h.caller, h.reason⟩⟩

instance : (l : Line) → Decidable l.Fair
  | .noise s => inferInstanceAs (Decidable (¬ "Did not inline ".toList <:+: s))
  | .notice r => inferInstanceAs (Decidable (RefusalLog.Fair r))

variable {r : Refusal} {l : Line} {rest : Text}

/-! ### Reading a notice -/

/-- The callee ends at the literal behind it. -/
theorem passes_callee (h : ¬ "called from".toList <:+: r.callee.toList) (rest : Text) :
    Passes (cut? " called from ".toList) r.callee.toList (" called from ".toList ++ rest) := by
  have hwords : "called from".toList <:+: " called from ".toList := by decide +kernel
  refine passes_of_overlaps (fun hi => h (hwords.trans hi)) ?_ rest
  -- the literal overlaps itself in one blank only, and the words stand in front of that
  have hoverlap : ∀ n < " called from ".toList.length, 0 < n →
      " called from ".toList.drop n <+: " called from ".toList → n = 12 := by
    decide +kernel
  have hfront : "called from".toList <:+: " called from ".toList.take 12 := by decide +kernel
  intro n hpos hlt hborder hsuffix
  obtain rfl := hoverlap n hlt hpos hborder
  exact h (hfront.trans hsuffix.isInfix)

theorem unbordered_caller : Unbordered " (".toList := by decide

theorem unbordered_reason : Unbordered ").".toList := by decide

/-- **A notice is read back**, whatever stands behind it. -/
theorem notice?_noticeText (h : Fair r) (rest : Text) :
    notice? (noticeText r ++ rest) = some (r, rest) := by
  obtain ⟨hcallee, hcaller, hreason⟩ := h.line
  have hcalleeEnd : ∀ behind, upTo onLine (cut? " called from ".toList)
      (r.callee.toList ++ (" called from ".toList ++ behind)) = some (r.callee.toList, behind) :=
    fun behind => upTo_append (forall_onLine hcallee) (passes_callee h.callee behind)
      (cut?_append _ behind)
  have hcallerEnd := unbordered_caller.upTo_cut? (forall_onLine hcaller) h.caller
  have hreasonEnd := unbordered_reason.upTo_cut? (forall_onLine hreason) h.reason rest
  unfold noticeText
  simp only [notice?, List.append_assoc, cut?_append, Option.bind_eq_bind, Option.bind_some,
    hcalleeEnd, hcallerEnd, hreasonEnd, String.ofList_toList, Option.pure_def]

theorem readsBehind_notice? : ReadsBehind "Did not inline ".toList notice? := by
  intro s hs
  rw [notice?, hs]
  rfl

/-! ### Reading a log -/

/-- A line is read up to its end. -/
theorem readAll_line (h : l.Fair) (hrest : rest = [] ∨ ∃ more, rest = '\n' :: more) :
    readAll notice? (l.text ++ rest) = l.notice?.toList ++ readAll notice? rest := by
  cases l with
  | noise s =>
    have hpasses : Passes (cut? "Did not inline ".toList) s rest := by
      rcases hrest with rfl | ⟨more, rfl⟩
      · exact passes_nil_of_not_isInfix h
      · exact passes_of_not_isInfix (by decide) h
    exact readAll_append (hpasses.behind readsBehind_notice?)
  | notice r =>
    have hne : noticeText r ≠ [] := List.append_ne_nil_of_left_ne_nil (by decide) _
    rw [Line.text, Line.notice?, Option.toList_some, List.singleton_append]
    exact readAll_cons (notice?_noticeText h rest) hne

/-- A newline is passed over. -/
theorem readAll_newline (more : Text) :
    readAll notice? ('\n' :: more) = readAll notice? more := by
  have hpasses : Passes (cut? "Did not inline ".toList) ['\n'] more :=
    passes_of_keepsOut (by decide) more
  exact readAll_append (hpasses.behind readsBehind_notice?)

/-- **All notices of a log are read**, in order. -/
theorem readAll_text {ls : List Line} (h : ∀ l ∈ ls, l.Fair) :
    readAll notice? (text ls) = ls.filterMap Line.notice? := by
  induction ls with
  | nil => exact readAll_nil rfl
  | cons l ls ih =>
    obtain ⟨hl, hls⟩ := List.forall_mem_cons.mp h
    have hcons : (l :: ls).filterMap Line.notice? =
        l.notice?.toList ++ readAll notice? (text ls) := by
      rw [ih hls, List.filterMap_cons]
      cases l.notice? <;> rfl
    rw [hcons]
    cases ls with
    | nil =>
      have htext : text [l] = l.text ++ [] := by simp [text]
      rw [htext, readAll_line hl (Or.inl rfl)]
      rfl
    | cons next more =>
      have htext : text (l :: next :: more) = l.text ++ '\n' :: text (next :: more) := by
        simp [text, List.intercalate_cons_cons]
      rw [htext, readAll_line hl (Or.inr ⟨_, rfl⟩), readAll_newline]

/-- **A run log is read back as it was written**: the scanner returns the notices among its lines,
in order, whose reasons hold none of the three phrases. -/
theorem scanRefusals_text {ls : List Line} (h : ∀ l ∈ ls, l.Fair) :
    scanRefusals (text ls) = (ls.filterMap Line.notice?).filter fun r =>
      ∀ phrase ∈ ["cumulative", "depth limit", "recursive"],
        ¬ phrase.toList <:+: r.reason.toList := by
  rw [scanRefusals, readAll_text h]
  refine List.filter_congr fun r _ => ?_
  rw [Bool.eq_iff_iff, Bool.not_eq_true', isPlaceReason_eq_false_iff, decide_eq_true_iff]
  rfl

/-- A log with look-alikes in its fields: words of a notice, brackets and dots that end none, empty
fields, and a notice about the place of the call before one that is not. -/
def oddLines : List Line := [
  .noise "ok (fine). Did not inline".toList,
  .notice { callee := "", caller := "", reason := "" },
  .notice { callee := "Did not inline g called", caller := "f called from h(", reason := "f(x)" },
  .noise [],
  .notice { callee := "g", caller := "f", reason := "target (f) is recursive" },
  .notice { callee := " (", caller := "(a) ", reason := "(too big)) ." },
  .noise []]

theorem scanRefusals_oddLines : (∀ l ∈ oddLines, l.Fair) ∧
    scanRefusals (text oddLines) = [
      { callee := "", caller := "", reason := "" },
      { callee := "Did not inline g called", caller := "f called from h(", reason := "f(x)" },
      { callee := " (", caller := "(a) ", reason := "(too big)) ." }] := by
  have h : ∀ l ∈ oddLines, l.Fair := by decide +kernel
  refine ⟨h, (scanRefusals_text h).trans ?_⟩
  decide +kernel

end RefusalLog

end InlineReport
