import InlineReport.Command.Perform
import InlineReport.Host.Usual
import InlineReport.Proofs.Data.Outcome
import InlineReport.Proofs.Host.Session

/-!
# Settings from several files

The settings of a run come from files that are laid over each other and from the command
line. Here it is said what comes out without saying how: **each setting for itself** is what
the command line gives, or what the last file gives that has something usable for it, or the
default (`Effective`).

A file that is missing, cannot be read or holds no table has nothing to say about any
setting, wherever it stands in the order (`tableAt?`); a value that is not usable does not
hide a usable one of an earlier file. What is usable depends on the setting, and null is not
the same everywhere: it is unusable for a text, and takes away the path of the summary and
the time limit.

What the text of a settings file stands for is up to the loader of the world, and nothing is
supposed about it.
-/

namespace InlineReport

namespace Settings

/-! ### Usable values -/

variable {lim : Limits} {raw : RawSettings} {key : String} {base s : Settings}

/-- The text that a table has for a key: of any value but null. -/
def usableText (lim : Limits) (key : String) (raw : RawSettings) : Option WideText :=
  match raw.get? key with
  | none | some .null => none
  | some v => (v.text lim raw.store).toOption

/-- The texts that a table has for a key: one for each item of a list. -/
def usableTexts (lim : Limits) (key : String) (raw : RawSettings) : Option (List WideText) :=
  ((raw.get? key).bind (Value.items? raw.store)).bind fun items =>
    (items.mapM (Value.text lim raw.store)).toOption

/-- The path that a table has for a key: of any value, none of null. -/
def usablePath (lim : Limits) (key : String) (raw : RawSettings) : Option (Option WideText) :=
  match raw.get? key with
  | none => none
  | some .null => some none
  | some v => (v.text lim raw.store).toOption.map some

/-- The fraction that a table has for a key: of any value that stands for one, none of
null. -/
def usableFraction (key : String) (raw : RawSettings) : Option (Option Binary) :=
  match raw.get? key with
  | none => none
  | some .null => some none
  | some v => v.fraction?.toOption.join.map some

theorem eq_of_mergeText {before now : WideText} (h : mergeText lim raw key before = .ok now) :
    now = (usableText lim key raw).getD before := by
  unfold mergeText at h
  unfold usableText
  generalize raw.get? key = found at h ⊢
  split at h
  · cases h
    rfl
  · cases h
    rfl
  next v _ =>
    simp only [toOption_eq_some_iff.mpr h, Option.getD_some]

theorem eq_of_mergeTexts {before now : List WideText}
    (h : mergeTexts lim raw key before = .ok now) :
    now = (usableTexts lim key raw).getD before := by
  unfold mergeTexts at h
  unfold usableTexts
  split at h
  next hnone =>
    cases h
    rw [hnone]
    rfl
  next items hitems =>
    rw [hitems, Option.bind_some, toOption_eq_some_iff.mpr h]
    rfl

theorem eq_of_mergePath {before now : Option WideText}
    (h : mergePath lim raw key before = .ok now) :
    now = (usablePath lim key raw).getD before := by
  unfold mergePath at h
  unfold usablePath
  generalize raw.get? key = found at h ⊢
  split at h
  · cases h
    rfl
  · cases h
    rfl
  next v _ =>
    obtain ⟨text, htext, rfl⟩ := map_eq_ok_iff.mp h
    simp only [toOption_eq_some_iff.mpr htext, Option.map_some, Option.getD_some]

theorem eq_of_mergeFraction {before now : Option Binary}
    (h : mergeFraction raw key before = .ok now) : now = (usableFraction key raw).getD before := by
  unfold mergeFraction at h
  unfold usableFraction
  generalize raw.get? key = found at h ⊢
  split at h
  · cases h
    rfl
  · cases h
    rfl
  next v _ =>
    obtain ⟨x, hx, rfl⟩ := map_eq_ok_iff.mp h
    simp only [toOption_eq_some_iff.mpr hx]
    cases x <;> rfl

/-- What a table makes of settings, setting by setting. -/
structure LaidOver (lim : Limits) (base : Settings) (raw : RawSettings) (s : Settings) :
    Prop where
  node : s.node = (usableText lim "node" raw).getD base.node
  traceFlags : s.traceFlags = (usableTexts lim "trace_flags" raw).getD base.traceFlags
  codeFile : s.codeFile = (usableText lim "code_trace_file" raw).getD base.codeFile
  irFile : s.irFile = (usableText lim "ir_trace_file" raw).getD base.irFile
  logFile : s.logFile = (usableText lim "log_file" raw).getD base.logFile
  htmlPath : s.htmlPath = (usableText lim "html_path" raw).getD base.htmlPath
  jsonPath : s.jsonPath = (usablePath lim "json_path" raw).getD base.jsonPath
  title : s.title = (usableText lim "title" raw).getD base.title
  timeout : s.timeout = (usableFraction "timeout_seconds" raw).getD base.timeout

/-- **A table that is laid over settings** changes each of them by the rule of that setting. -/
theorem laidOver_of_merge (h : merge lim base raw = .ok s) : LaidOver lim base raw s := by
  obtain ⟨traceFlags, hflags, h⟩ := bind_eq_ok_iff.mp h
  obtain ⟨node, hnode, h⟩ := bind_eq_ok_iff.mp h
  obtain ⟨codeFile, hcode, h⟩ := bind_eq_ok_iff.mp h
  obtain ⟨irFile, hir, h⟩ := bind_eq_ok_iff.mp h
  obtain ⟨logFile, hlog, h⟩ := bind_eq_ok_iff.mp h
  obtain ⟨htmlPath, hhtml, h⟩ := bind_eq_ok_iff.mp h
  obtain ⟨jsonPath, hjson, h⟩ := bind_eq_ok_iff.mp h
  obtain ⟨title, htitle, h⟩ := bind_eq_ok_iff.mp h
  obtain ⟨timeout, htimeout, h⟩ := bind_eq_ok_iff.mp h
  cases h
  exact {
    node := eq_of_mergeText hnode
    traceFlags := eq_of_mergeTexts hflags
    codeFile := eq_of_mergeText hcode
    irFile := eq_of_mergeText hir
    logFile := eq_of_mergeText hlog
    htmlPath := eq_of_mergeText hhtml
    jsonPath := eq_of_mergePath hjson
    title := eq_of_mergeText htitle
    timeout := eq_of_mergeFraction htimeout }

/-! ### Tables one after another -/

/-- What the last table gives that has something usable. -/
def lastUsable {α : Type} (use : RawSettings → Option α) (tables : List RawSettings) : Option α :=
  (tables.filterMap use).getLast?

theorem getD_lastUsable_cons {α : Type} (use : RawSettings → Option α) (raw : RawSettings)
    (tables : List RawSettings) (before : α) :
    (lastUsable use (raw :: tables)).getD before =
      (lastUsable use tables).getD ((use raw).getD before) := by
  unfold lastUsable
  cases huse : use raw with
  | none => simp [huse]
  | some a =>
    cases hlast : (tables.filterMap use).getLast? <;> simp [huse, List.getLast?_cons, hlast]

/-- A setting that each table changes by the same rule is changed by the last table that has
something usable. -/
theorem field_of_foldlM_merge {α : Type} {field : Settings → α} {use : RawSettings → Option α}
    (hstep : ∀ base raw s, merge lim base raw = .ok s → field s = (use raw).getD (field base))
    {tables : List RawSettings} (h : tables.foldlM (merge lim) base = .ok s) :
    field s = (lastUsable use tables).getD (field base) := by
  induction tables generalizing base with
  | nil => cases h; rfl
  | cons raw tables ih =>
    rw [List.foldlM_cons] at h
    obtain ⟨next, hmerge, h⟩ := bind_eq_ok_iff.mp h
    rw [ih h, hstep _ _ _ hmerge, getD_lastUsable_cons]

/-! ### Files -/

variable {w w' : World} {p : Path}

/-- What the text of the file at a path is loaded as, if it has one. -/
def loadedAt? (w : World) (p : Path) : Option (Value × Store) := do
  let bytes ← (w.tree.ask p (·.read p)).toOption
  w.load? (Text.unifyNewlines (← Utf8.decode? bytes))

/-- What the file at a path holds. -/
def contentAt (w : World) (p : Path) : Content := .ofLoaded (loadedAt? w p)

/-- The table in the file at a path. There is none if the file is missing, cannot be read, or
holds something else. -/
def tableAt? (w : World) (p : Path) : Option RawSettings :=
  match contentAt w p with
  | .table raw => some raw
  | .unreadable | .other => none

theorem tableAt?_eq_some_iff : tableAt? w p = some raw ↔ contentAt w p = .table raw := by
  unfold tableAt?
  cases contentAt w p <;> simp

theorem tableAt?_eq_none (h : ∀ raw, contentAt w p ≠ .table raw) : tableAt? w p = none :=
  Option.eq_none_iff_forall_ne_some.mpr fun raw hraw => h raw (tableAt?_eq_some_iff.mp hraw)

/-- Where nothing is, nothing can be read. -/
theorem exists_read_eq_error {t : Tree} (h : t.kindAt? p = .ok none) :
    ∃ e, t.ask p (·.read p) = .error e := by
  unfold Tree.kindAt? Tree.ask at h
  unfold Tree.ask
  cases hflaw : p.flaw? with
  | some flaw => exact ⟨_, rfl⟩
  | none =>
    simp only [hflaw, Option.isSome_none, Bool.false_eq_true, if_false, Tree.find?] at h
    cases hplace : t.locate p with
    | error fault => exact ⟨_, by simp only [Tree.read, hplace]; rfl⟩
    | ok place =>
      rw [hplace] at h
      cases hfound : t.get? place with
      | none => exact ⟨_, by simp only [Tree.read, hplace, bind, Except.bind, hfound]; rfl⟩
      | some entry =>
        simp only [hfound] at h
        cases h

theorem tableAt?_of_missing (h : w.tree.kindAt? p = .ok none) : tableAt? w p = none := by
  obtain ⟨e, he⟩ := exists_read_eq_error h
  rw [tableAt?, contentAt, loadedAt?, he]
  rfl

/-- What a file makes of settings, if it can be told whether there is one. -/
def laidOverAt (w : World) (base : Settings) (p : Path) : Except Failure Settings := do
  let _ ← w.tree.kindAt? p
  ((tableAt? w p).map (merge w.limits base)).getD (.ok base)

theorem runIn_contentOf : (contentOf p : Session Content).runIn w = (.ok (contentAt w p), w) := by
  unfold contentOf contentAt loadedAt?
  rw [Session.runIn_tryCatch, Session.runIn_bind, Session.runIn_readBytes]
  cases w.tree.ask p (·.read p) with
  | error e => rfl
  | ok bytes =>
    simp only
    cases hdecode : Utf8.decode? bytes with
    | none => simp [Except.toOption, hdecode, Content.ofLoaded]
    | some text =>
      simp only [Except.toOption, hdecode, Option.bind_eq_bind, Option.bind_some]
      rw [Session.runIn_bind_of_ok (Session.runIn_load? _), Session.runIn_pure]

/-- The line of the log that tells of a file that is passed over. -/
def warning (before : String) (p : Path) (after : String) : LogLine :=
  { level := .warning, source := .settings, message := wide before ++ p.text ++ wide after }

/-- The warning about the file at a path: there is one unless the file holds a table. -/
def warningAt (w : World) (p : Path) : Option LogLine :=
  match w.tree.kindAt? p with
  | .error _ => none
  | .ok none => some (warning "Config " p " not found; skipping.")
  | .ok (some _) =>
    match contentAt w p with
    | .unreadable => some (warning "Failed to load " p " (...). Skipping.")
    | .other => some (warning "Config " p " is not a mapping; skipping.")
    | .table _ => none

/-- **A file is laid over settings** by what it holds alone. At most, there is a warning. -/
theorem runIn_loadFile (base : Settings) (p : Path) (w : World) :
    (loadFile base p : Session Settings).runIn w =
      (laidOverAt w base p, { w with log := w.log ++ (warningAt w p).toList }) := by
  unfold loadFile laidOverAt warningAt
  rw [Session.runIn_bind, Session.runIn_isThere]
  cases hkind : w.tree.kindAt? p with
  | error e =>
    simp only [Except.map, Option.toList_none, List.append_nil]
    rfl
  | ok found =>
    cases found with
    | none =>
      rw [tableAt?_of_missing hkind]
      rfl
    | some kind =>
      simp only [Except.map, Option.isSome_some, if_true]
      rw [Session.runIn_bind, runIn_contentOf]
      cases hcontent : contentAt w p with
      | table raw =>
        rw [tableAt?_eq_some_iff.mpr hcontent]
        simp only [Option.toList_none, List.append_nil, Option.map_some, Option.getD_some]
        rw [Session.runIn_bind_of_ok Session.runIn_limits]
        cases merge w.limits base raw <;> simp [bind, Except.bind]
      | unreadable =>
        rw [tableAt?_eq_none (by simp [hcontent])]
        rfl
      | other =>
        rw [tableAt?_eq_none (by simp [hcontent])]
        rfl

/-- The log has no part in what files make of settings. -/
theorem laidOverAt_log (w : World) (log : List LogLine) :
    laidOverAt { w with log } = laidOverAt w := rfl

theorem warningAt_log (w : World) (log : List LogLine) :
    warningAt { w with log } = warningAt w := rfl

/-- **Files are laid over settings** one after another. Where all of them are, the log has the
warning about each that is passed over. -/
theorem runIn_foldlM_loadFile (paths : List Path) (base : Settings) (w : World) :
    ∃ lines, (paths.foldlM loadFile base : Session Settings).runIn w =
        (paths.foldlM (laidOverAt w) base, { w with log := w.log ++ lines }) ∧
      ∀ s, paths.foldlM (laidOverAt w) base = .ok s →
        lines = paths.filterMap (warningAt w) := by
  induction paths generalizing base w with
  | nil => exact ⟨[], by rw [List.append_nil]; rfl, fun _ _ => rfl⟩
  | cons p paths ih =>
    rw [List.foldlM_cons, List.foldlM_cons, Session.runIn_bind, runIn_loadFile]
    cases laidOverAt w base p with
    | error e => exact ⟨_, rfl, fun s h => nomatch h⟩
    | ok next =>
      obtain ⟨more, hrest, hlines⟩ :=
        ih next { w with log := w.log ++ (warningAt w p).toList }
      rw [laidOverAt_log] at hrest hlines
      rw [warningAt_log] at hlines
      refine ⟨(warningAt w p).toList ++ more, ?_, fun s hs => ?_⟩
      · simpa [bind, Except.bind] using hrest
      · rw [hlines s hs]
        cases hwarning : warningAt w p <;> simp [hwarning]

/-- The paths of the settings files for a folder. -/
def pathsIn (folder : Path) (files : Option (List Path)) : List Path :=
  match files with
  | some files => files.map folder.join
  | none => [folder.join (.ofString fileName)]

/-- The warnings about the settings files for a folder. The file that is used if none is named
may be missing. -/
def warningsIn (w : World) (folder : Path) (files : Option (List Path)) : List LogLine :=
  match files with
  | some files => (files.map folder.join).filterMap (warningAt w)
  | none =>
    let file := folder.join (.ofString fileName)
    if w.tree.kindAt? file = .ok none then [] else (warningAt w file).toList

theorem runIn_load (folder : Path) (files : Option (List Path)) (w : World) :
    ∃ lines, (load folder files : Session Settings).runIn w =
        ((pathsIn folder files).foldlM (laidOverAt w) {},
          { w with log := w.log ++ lines }) ∧
      ∀ s, (pathsIn folder files).foldlM (laidOverAt w) {} = .ok s →
        lines = warningsIn w folder files := by
  cases files with
  | some files => exact runIn_foldlM_loadFile _ {} w
  | none =>
    let file := folder.join (.ofString fileName)
    have hone : (load folder none : Session Settings) = do
      if ← Host.isThere file then loadFile {} file else return {} := rfl
    have hpaths : (pathsIn folder none).foldlM (laidOverAt w) {} =
        laidOverAt w {} file := by simp [pathsIn, file]
    rw [hone, hpaths, Session.runIn_bind, Session.runIn_isThere]
    unfold warningsIn
    cases hkind : w.tree.kindAt? file with
    | error e =>
      refine ⟨[], ?_, fun s hs => ?_⟩
      · rw [laidOverAt, hkind, List.append_nil]
        rfl
      · rw [laidOverAt, hkind] at hs
        cases hs
    | ok found =>
      cases found with
      | none =>
        refine ⟨[], ?_, fun s hs => by rw [if_pos hkind]⟩
        rw [laidOverAt, hkind, tableAt?_of_missing hkind, List.append_nil]
        rfl
      | some kind =>
        have hthere : w.tree.kindAt? file ≠ .ok none := by
          rw [hkind]
          simp
        exact ⟨_, runIn_loadFile {} file w, fun s hs => by rw [if_neg hthere]⟩

theorem runIn_settingsFor (folder : Path) (flags : ReportFlags) (w : World) :
    ∃ lines, (Request.settingsFor folder flags : Session Settings).runIn w =
      (((pathsIn folder (Request.namedFiles flags.files)).foldlM (laidOverAt w) {}).map
        flags.apply, { w with log := w.log ++ lines }) := by
  obtain ⟨lines, hload, -⟩ := runIn_load folder (Request.namedFiles flags.files) w
  refine ⟨lines, ?_⟩
  unfold Request.settingsFor
  rw [Session.runIn_bind, hload]
  cases (pathsIn folder (Request.namedFiles flags.files)).foldlM (laidOverAt w) {} <;> rfl

/-! ### The settings of a run -/

/-- Files that have no table are passed over. -/
theorem foldlM_merge_of_laidOverAt {paths : List Path}
    (h : paths.foldlM (laidOverAt w) base = .ok s) :
    (paths.filterMap (tableAt? w)).foldlM (merge w.limits) base = .ok s := by
  induction paths generalizing base with
  | nil => exact h
  | cons p paths ih =>
    rw [List.foldlM_cons] at h
    obtain ⟨next, hfirst, h⟩ := bind_eq_ok_iff.mp h
    obtain ⟨kind, -, hfirst⟩ := bind_eq_ok_iff.mp hfirst
    cases htable : tableAt? w p with
    | none =>
      rw [htable] at hfirst
      cases hfirst
      rw [List.filterMap_cons_none htable]
      exact ih h
    | some raw =>
      rw [htable] at hfirst
      rw [List.filterMap_cons_some htable, List.foldlM_cons]
      exact bind_eq_ok_iff.mpr ⟨next, hfirst, ih h⟩

/-- Settings that come from the command line, from tables one after another, and from the
defaults. -/
structure Effective (lim : Limits) (flags : ReportFlags) (tables : List RawSettings)
    (s : Settings) : Prop where
  node : s.node = (flags.node.map wide).getD
    ((lastUsable (usableText lim "node") tables).getD (wide "node"))
  traceFlags : s.traceFlags = (lastUsable (usableTexts lim "trace_flags") tables).getD
    (["--trace-inlining", "--trace-hydrogen", "--trace-phase=Z", "--trace-deopt",
      "--hydrogen-track-positions", "--redirect-code-traces"].map wide)
  codeFile : s.codeFile = (flags.codeFile.map wide).getD
    ((lastUsable (usableText lim "code_trace_file") tables).getD (wide "code.asm"))
  irFile : s.irFile = (flags.irFile.map wide).getD
    ((lastUsable (usableText lim "ir_trace_file") tables).getD (wide "hg.cfg"))
  logFile : s.logFile = (flags.logFile.map wide).getD
    ((lastUsable (usableText lim "log_file") tables).getD (wide "out.txt"))
  htmlPath : s.htmlPath = (flags.htmlPath.map wide).getD
    ((lastUsable (usableText lim "html_path") tables).getD (wide "ir.html"))
  jsonPath : s.jsonPath = (flags.jsonPath.map fun path => some (wide path)).getD
    ((lastUsable (usablePath lim "json_path") tables).getD none)
  title : s.title = (flags.title.map wide).getD
    ((lastUsable (usableText lim "title") tables).getD (wide "JIT inlining report"))
  timeout : s.timeout = (flags.timeout.map some).getD
    ((lastUsable (usableFraction "timeout_seconds") tables).getD none)

theorem effective_of_foldlM_merge {tables : List RawSettings} (flags : ReportFlags)
    (h : tables.foldlM (merge lim) {} = .ok s) : Effective lim flags tables (flags.apply s) where
  node := congrArg (flags.node.map wide).getD
    (field_of_foldlM_merge (fun _ _ _ h => (laidOver_of_merge h).node) h)
  traceFlags := field_of_foldlM_merge (fun _ _ _ h => (laidOver_of_merge h).traceFlags) h
  codeFile := congrArg (flags.codeFile.map wide).getD
    (field_of_foldlM_merge (fun _ _ _ h => (laidOver_of_merge h).codeFile) h)
  irFile := congrArg (flags.irFile.map wide).getD
    (field_of_foldlM_merge (fun _ _ _ h => (laidOver_of_merge h).irFile) h)
  logFile := congrArg (flags.logFile.map wide).getD
    (field_of_foldlM_merge (fun _ _ _ h => (laidOver_of_merge h).logFile) h)
  htmlPath := congrArg (flags.htmlPath.map wide).getD
    (field_of_foldlM_merge (fun _ _ _ h => (laidOver_of_merge h).htmlPath) h)
  jsonPath := by
    rw [← field_of_foldlM_merge (fun _ _ _ h => (laidOver_of_merge h).jsonPath) h]
    cases hflag : flags.jsonPath <;> simp [ReportFlags.apply, hflag]
  title := congrArg (flags.title.map wide).getD
    (field_of_foldlM_merge (fun _ _ _ h => (laidOver_of_merge h).title) h)
  timeout := by
    rw [← field_of_foldlM_merge (fun _ _ _ h => (laidOver_of_merge h).timeout) h]
    cases hflag : flags.timeout <;> simp [ReportFlags.apply, hflag]

/-- **The settings of a run**: whenever there are any, each of them is what the command line
gives, or else what the last of the files gives that has something usable for it, or else the
default. -/
theorem effective_of_settingsFor {folder : Path} {flags : ReportFlags}
    (h : (Request.settingsFor folder flags : Session Settings).runIn w = (.ok s, w')) :
    Effective w.limits flags
      ((pathsIn folder (Request.namedFiles flags.files)).filterMap (tableAt? w)) s := by
  obtain ⟨lines, hrun⟩ := runIn_settingsFor folder flags w
  rw [hrun, Prod.mk.injEq] at h
  obtain ⟨loaded, hload, rfl⟩ := map_eq_ok_iff.mp h.1
  exact effective_of_foldlM_merge flags (foldlM_merge_of_laidOverAt hload)

/-- A world with four settings files: one that sets much, one that is ill-formed, one that is
no table, and one with null for a text, a time limit that is none, and null for the path of the
summary. -/
def fourFiles : World :=
  .usual { entries := [
    ([wide "a.yml"], .file (Utf8.encode
      "node: x\nhtml_path: a.html\ntimeout_seconds: 30\ntitle: A\njson_path: s.json\n".toList)),
    ([wide "bad.yml"], .file (Utf8.encode "node: [\n".toList)),
    ([wide "list.yml"], .file (Utf8.encode "- node\n".toList)),
    ([wide "b.yml"], .file (Utf8.encode
      "node:\ntimeout_seconds: soon\njson_path:\nhtml_path: 3\ntrace_flags: [a, 7]\n".toList))] }
    (.ofString "/") fun _ t => (.timedOut, t)

/-- A command line that names these files and another one, and gives a title. -/
def fiveNames : ReportFlags where
  files := ["a.yml", "missing.yml", "bad.yml", "list.yml", "b.yml"]
  title := some "T"

/-- What they come to. -/
def fourSettings : Settings where
  node := wide "x"
  traceFlags := [wide "a", wide "7"]
  htmlPath := wide "3"
  title := wide "T"
  timeout := Binary.ofInt? 30

theorem effective_of_settingsFor_fourFiles :
    ∃ w', (Request.settingsFor (.ofString "/") fiveNames : Session Settings).runIn fourFiles =
        (.ok fourSettings, w') ∧
      Effective .usual fiveNames
        ((pathsIn (.ofString "/") (Request.namedFiles fiveNames.files)).filterMap
          (tableAt? fourFiles)) fourSettings := by
  have hsettings : ((Request.settingsFor (.ofString "/") fiveNames : Session Settings).runIn
      fourFiles).1.toOption = some fourSettings := by decide +kernel
  obtain ⟨w', hrun⟩ := Session.exists_runIn_eq hsettings
  exact ⟨w', hrun, effective_of_settingsFor hrun⟩

end Settings

end InlineReport
