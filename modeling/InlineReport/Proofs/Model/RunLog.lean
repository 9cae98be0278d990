import InlineReport.Proofs.Model.Ownership
import InlineReport.Proofs.Text.Reading
import InlineReport.Proofs.Trace.LogText

/-!
# What a run log can do to a model

The run log holds whatever the traced program prints, so nothing is known about it. This file
says what it is able to change, by comparing the model of a trace with the model of the same
trace and an **empty log**.

The log is read last, and reading it cannot fail: the two models are built, or the same failure
stops both (`Model.buildModel_log`). Where they are built, they are the same model but for the
refusals of the functions that calls by name mean: `Model.forgetRefusals` takes the one to the
other. And each of these refusals is a single reason, that of the *last* notice about the
function in the log (`reasonIn`); the notices about other functions, and those that are about
the place of a call, are as if they were not there.
-/

namespace InlineReport

/-! ### The reasons in a log -/

/-- The reason of the last refusal of a function among refusals, if there is one. -/
def lastReason? (refusals : List Refusal) (name : String) : Option String :=
  ((refusals.filter (·.callee = name)).getLast?).map (·.reason)

/-- **The reason that a log gives** for not inlining the calls of a function: that of the last
notice about the function whose reason is not about the place of a call; empty if there is no
such notice. -/
def reasonIn (log : Text) (name : String) : String :=
  let notices := (Text.readAll RefusalLog.notice? log).filter fun r =>
    r.callee = name ∧ ∀ phrase ∈ RefusalLog.placePhrases, ¬ phrase.toList <:+: r.reason.toList
  ((notices.getLast?).map (·.reason)).getD ""

/-- The refusals that are noted are those that the reasons are taken from. -/
theorem lastReason?_scanRefusals (log : Text) (name : String) :
    (lastReason? (scanRefusals log) name).getD "" = reasonIn log name := by
  have hnotices : (scanRefusals log).filter (·.callee = name) =
      (Text.readAll RefusalLog.notice? log).filter fun r =>
        r.callee = name ∧
          ∀ phrase ∈ RefusalLog.placePhrases, ¬ phrase.toList <:+: r.reason.toList := by
    rw [scanRefusals, List.filter_filter]
    refine List.filter_congr fun r _ => ?_
    rw [Bool.decide_and, Bool.eq_iff_iff, Bool.and_eq_true, Bool.and_eq_true, Bool.not_eq_true',
      isPlaceReason_eq_false_iff, decide_eq_true_iff, decide_eq_true_iff]
  rw [lastReason?, hnotices, reasonIn]

theorem lastReason?_concat (refusals : List Refusal) (r : Refusal) (name : String) :
    lastReason? (refusals ++ [r]) name =
      if r.callee = name then some r.reason else lastReason? refusals name := by
  rw [lastReason?, lastReason?, List.filter_append]
  by_cases h : r.callee = name
  · simp [h]
  · simp [h]

/-! ### Registries with changed values -/

namespace Registry

variable {κ α : Type}

/-- Changes every value. -/
def mapValues (g : α → α) (r : Registry κ α) : Registry κ α :=
  ⟨r.entries.map fun (k, a) => (k, g a), by
    rw [map_fst_map fun _ => g]
    exact r.nodup_keys⟩

theorem ext_entries {r r' : Registry κ α} (h : r.entries = r'.entries) : r = r' := by
  cases r
  cases r'
  cases h
  rfl

theorem mapValues_eq_self {g : α → α} {r : Registry κ α} (h : ∀ a ∈ r.values, g a = a) :
    r.mapValues g = r := by
  refine ext_entries ?_
  refine (List.map_congr_left fun e he => ?_).trans (List.map_id _)
  exact Prod.ext rfl (h e.2 (List.mem_map.mpr ⟨e, he, rfl⟩))

/-- A change that is undone for every value is undone for the one that was changed. -/
theorem mapValues_modify [DecidableEq κ] {g f : α → α} (h : ∀ a, g (f a) = g a)
    (r : Registry κ α) (k : κ) : (r.modify k f).mapValues g = r.mapValues g := by
  refine ext_entries ?_
  simp only [mapValues, modify, List.map_map]
  refine List.map_congr_left fun e _ => Prod.ext rfl ?_
  simp only [Function.comp_apply]
  split
  · exact h e.2
  · rfl

end Registry

namespace Model

variable {m m' : Model} {code ir log : Text} {path name : String}

/-! ### Forgetting refusals -/

/-- A file whose functions have no refusals. -/
def forgetIn (file : SourceFile) : SourceFile :=
  { file with functions := file.functions.mapValues fun f => { f with refusal := "" } }

/-- **The model without its refusals**, and with all else that it holds. -/
def forgetRefusals (m : Model) : Model := { m with files := m.files.mapValues forgetIn }

/-- Noting a refusal is undone by forgetting refusals. -/
theorem forgetRefusals_applyRefusal (m : Model) (r : Refusal) :
    (m.applyRefusal r).forgetRefusals = m.forgetRefusals := by
  unfold applyRefusal
  split
  · rfl
  · next path _ =>
    have hfile : ∀ file : SourceFile, forgetIn { file with
        functions := file.functions.modify r.callee fun f => { f with refusal := r.reason } } =
        forgetIn file := fun file =>
      congrArg (fun functions => { file with functions })
        (Registry.mapValues_modify (f := fun f : Function => { f with refusal := r.reason })
          (fun _ => rfl) file.functions r.callee)
    rw [modifyFunction, forgetRefusals, forgetRefusals, Registry.mapValues_modify hfile]

theorem forgetRefusals_applyRefusals (m : Model) (refusals : List Refusal) :
    (m.applyRefusals refusals).forgetRefusals = m.forgetRefusals := by
  induction refusals generalizing m with
  | nil => rfl
  | cons r refusals ih => exact (ih (m.applyRefusal r)).trans (forgetRefusals_applyRefusal m r)

/-- **A model without refusals**: no reason is known for any function. -/
def Unrefused (m : Model) : Prop :=
  ∀ path name f, m.function? path name = some f → f.refusal = ""

theorem Unrefused.forgetRefusals_eq (hm : Unrefused m) : m.forgetRefusals = m := by
  have hfiles : m.files.mapValues forgetIn = m.files := by
    refine Registry.mapValues_eq_self fun file hfile => ?_
    obtain ⟨path, hpath⟩ := Registry.mem_values_iff.mp hfile
    have hfunctions : (file.functions.mapValues fun f => { f with refusal := "" }) =
        file.functions := by
      refine Registry.mapValues_eq_self fun f hf => ?_
      obtain ⟨name, hname⟩ := Registry.mem_values_iff.mp hf
      have hrefusal : f.refusal = "" :=
        hm path name f (Option.bind_eq_some_iff.mpr ⟨file, hpath, hname⟩)
      cases f
      cases hrefusal
      rfl
    rw [forgetIn, hfunctions]
  rw [forgetRefusals, hfiles]

/-! ### No refusals before the log -/

theorem Unrefused.of_files (hm : Unrefused m) (h : m'.files = m.files) : Unrefused m' := by
  intro path name f hf
  rw [function?, h] at hf
  exact hm path name f hf

theorem Unrefused.applyCompiled (hm : Unrefused m) (b : SourceBlock) :
    Unrefused (m.applyCompiled b) := by
  intro path name f hf
  rw [function?_applyCompiled] at hf
  split at hf
  · obtain rfl := Option.some.inj hf
    cases hknown : m.function? b.file b.name with
    | none => rfl
    | some f => exact hm _ _ f hknown
  · exact hm path name f hf

theorem Unrefused.applySource (hm : Unrefused m) (b : SourceBlock) :
    Unrefused (m.applySource b).model := by
  unfold Model.applySource
  split
  · exact hm.of_files (files_homes_applyInline m b).1
  · exact hm.applyCompiled b

theorem Unrefused.markDeopted (hm : Unrefused m) : Unrefused m.markDeopted := by
  intro path name f hf
  rw [(function?_markDeopted m path name).2] at hf
  split at hf
  · obtain ⟨f', hf', rfl⟩ := Option.map_eq_some_iff.mp hf
    exact hm path name f' hf'
  · exact hm path name f hf

/-- Neither source blocks nor IR blocks note a refusal. -/
theorem unrefused_applyIrs (sources : List SourceBlock) (blocks : List IrBlock) :
    Unrefused ((Model.empty.applySources sources).model.applyIrs blocks).model := by
  have hempty : Unrefused Model.empty := fun _ _ _ hf => absurd hf (by simp [function?, empty])
  have hsources : Unrefused (Model.empty.applySources sources).model :=
    model_applySources (fun _ hm => hm.markDeopted)
      (Progress.model_forAll Model.applySource Unrefused (fun _ b hm => hm.applySource b) hempty)
  exact hsources.of_files (runtimeGrown_applyIrs _ blocks).files

/-! ### The refusals of a log -/

theorem homes_applyRefusals (m : Model) (refusals : List Refusal) :
    (m.applyRefusals refusals).homes = m.homes :=
  (sameEntries_applyRefusals m refusals).homes

theorem function?_applyRefusal (m : Model) (r : Refusal) (path name : String) :
    (m.applyRefusal r).function? path name =
      if r.callee = name ∧ m.homes.get? name = some path then
        (m.function? path name).map fun f => { f with refusal := r.reason }
      else m.function? path name := by
  unfold applyRefusal
  split
  · next hhome =>
    rw [if_neg]
    rintro ⟨rfl, hpath⟩
    rw [hhome] at hpath
    exact absurd hpath (by simp)
  · next home hhome =>
    rw [function?_modifyFunction]
    refine if_congr ?_ rfl rfl
    constructor
    · rintro ⟨rfl, rfl⟩
      exact ⟨rfl, hhome⟩
    · rintro ⟨rfl, hpath⟩
      exact ⟨Option.some.inj (hpath.symm.trans hhome), rfl⟩

/-- **The last refusal stays**: noting refusals writes into the functions that calls by name
mean, and each of them keeps the reason that was noted last. -/
theorem function?_applyRefusals (m : Model) (refusals : List Refusal) (path name : String) :
    (m.applyRefusals refusals).function? path name =
      (m.function? path name).map fun f =>
        { f with refusal :=
            if m.homes.get? name = some path then (lastReason? refusals name).getD f.refusal
            else f.refusal } := by
  induction refusals using List.reverseRecOn with
  | nil =>
    change m.function? path name = _
    cases m.function? path name with
    | none => rfl
    | some f => simp [lastReason?]
  | append_singleton refusals r ih =>
    have hrun : m.applyRefusals (refusals ++ [r]) = (m.applyRefusals refusals).applyRefusal r := by
      rw [applyRefusals, List.foldl_concat]
      rfl
    rw [hrun, function?_applyRefusal, homes_applyRefusals, ih, lastReason?_concat]
    by_cases hhome : m.homes.get? name = some path
    · by_cases hcallee : r.callee = name
      · simp [hhome, hcallee, Option.map_map, Function.comp_def]
      · simp [hhome, hcallee]
    · simp [hhome]

/-- The function that calls by its name mean is the one in the home of the name. -/
theorem Indexed.functionByName?_eq_some_iff {created : List (String × String)}
    (hm : Indexed created m) {f : Function} (hf : f ∈ m.functions) :
    m.functionByName? f.name = some f ↔ m.homes.get? f.name = some f.file := by
  have hname : m.functionByName? f.name = (m.homes.get? f.name).bind (m.function? · f.name) := rfl
  rw [hname, Option.bind_eq_some_iff]
  constructor
  · rintro ⟨path, hpath, hfound⟩
    rw [hpath, (hm.named hfound).1]
  · exact fun hhome => ⟨f.file, hhome, hm.function?_eq hf⟩

/-! ### Two runs -/

theorem scanRefusals_nil : scanRefusals [] = [] := by
  rw [scanRefusals, Text.readAll_nil rfl, List.filter_nil]

/-- Building a model reads the log last, and cannot fail there. -/
theorem buildModel_eq (code ir log : Text) :
    buildModel code ir log =
      (buildModel code ir []).map fun m => m.applyRefusals (scanRefusals log) := by
  unfold buildModel buildNoted
  cases ofSources code with
  | error e => rfl
  | ok sources =>
    obtain ⟨built, first⟩ := sources
    simp only
    cases built.withIr ir with
    | error e => rfl
    | ok routed =>
      obtain ⟨m, second⟩ := routed
      have hbase : m.applyRefusals (scanRefusals []) = m := by
        rw [scanRefusals_nil]
        rfl
      change _ = Except.ok ((m.applyRefusals (scanRefusals [])).applyRefusals (scanRefusals log))
      rw [hbase]
      rfl

/-- Without a log, no refusal is known. -/
theorem unrefused_of_buildModel (h : buildModel code ir [] = .ok m) : Unrefused m := by
  obtain ⟨sources, built, blocks, routed, -, hbuilt, -, hrouted, rfl⟩ := exists_of_buildModel h
  rw [scanRefusals_nil, ← Progress.model_eq_of_result hrouted,
    ← Progress.model_eq_of_result hbuilt]
  exact unrefused_applyIrs sources blocks

/-- What stops a model from being built is not in the log. -/
theorem buildModel_eq_error_iff (e : Failure) :
    buildModel code ir log = .error e ↔ buildModel code ir [] = .error e := by
  rw [buildModel_eq code ir log]
  cases buildModel code ir [] with
  | error e' => exact Iff.rfl
  | ok base => exact iff_of_false (by simp [Except.map]) (by simp)

/-- A model with a log is the model without it, to which the refusals of the log are added. -/
theorem exists_of_buildModel_log (h : buildModel code ir log = .ok m) :
    ∃ base, buildModel code ir [] = .ok base ∧ m = base.applyRefusals (scanRefusals log) := by
  rw [buildModel_eq] at h
  cases hbase : buildModel code ir [] with
  | error e =>
    rw [hbase] at h
    exact absurd h (by simp [Except.map])
  | ok base =>
    rw [hbase] at h
    exact ⟨base, rfl, (Except.ok.inj h).symm⟩

/-- **The refusal of a function** is the last one of its name, if it is the one that the name
means. -/
theorem Unrefused.refusal_applyRefusals (hm : Unrefused m) {refusals : List Refusal}
    {created : List (String × String)} (hindexed : Indexed created (m.applyRefusals refusals))
    {f : Function} (hf : f ∈ (m.applyRefusals refusals).functions) :
    f.refusal = if m.homes.get? f.name = some f.file then (lastReason? refusals f.name).getD ""
      else "" := by
  have hfound := hindexed.function?_eq hf
  rw [function?_applyRefusals] at hfound
  obtain ⟨g, hg, hfg⟩ := Option.map_eq_some_iff.mp hfound
  have hrefusal := congrArg Function.refusal hfg
  rw [← hrefusal, hm _ _ g hg]

/-- **What a run log can do**: nothing to whether a model is built, nor to the failure that
stops it. To a model that is built it adds refusals, and nothing else; those of the functions that
calls by name mean, which are what the log says last about each. -/
theorem buildModel_log (code ir log : Text) :
    (∀ e, buildModel code ir log = .error e ↔ buildModel code ir [] = .error e) ∧
      ∀ m, buildModel code ir log = .ok m →
        buildModel code ir [] = .ok m.forgetRefusals ∧
        ∀ f ∈ m.functions,
          (m.functionByName? f.name = some f → f.refusal = reasonIn log f.name) ∧
          (m.functionByName? f.name ≠ some f → f.refusal = "") := by
  refine ⟨fun e => buildModel_eq_error_iff e, fun m hm => ?_⟩
  obtain ⟨created, hindexed⟩ := (finished_of_buildModel hm).indexed
  obtain ⟨base, hbase, rfl⟩ := exists_of_buildModel_log hm
  have hnone := unrefused_of_buildModel hbase
  constructor
  · rw [forgetRefusals_applyRefusals, hnone.forgetRefusals_eq]
    exact hbase
  · intro f hf
    have hrefusal := hnone.refusal_applyRefusals hindexed hf
    rw [lastReason?_scanRefusals] at hrefusal
    rw [ne_eq, hindexed.functionByName?_eq_some_iff hf, homes_applyRefusals]
    constructor
    · intro hhome
      rw [hrefusal, if_pos hhome]
    · intro hhome
      rw [hrefusal, if_neg hhome]

/-- A source stream with a function `f` in each of two files. -/
def sharedNameSources : Text :=
  ("--- FUNCTION SOURCE (a.js:f) id\x7b0,0\x7d ---\nx\n--- END ---\n" ++
    "--- FUNCTION SOURCE (b.js:f) id\x7b1,0\x7d ---\ny\n--- END ---\n").toList

/-- A log with three notices about `f`, the last of which is about the place of its call. -/
def repeatedNotices : Text :=
  ("Did not inline f called from g (too big).\n" ++
    "Did not inline f called from h (a (b)).\n" ++
    "Did not inline f called from f (recursive).\n").toList

/-- The function that the name means has the last reason that is about it, the other one none. -/
theorem buildModel_log_repeatedNotices :
    ∃ m f g, buildModel sharedNameSources [] repeatedNotices = .ok m ∧
      buildModel sharedNameSources [] [] = .ok m.forgetRefusals ∧
      (f ∈ m.functions ∧ m.functionByName? f.name ≠ some f ∧ f.refusal = "") ∧
      (g ∈ m.functions ∧ m.functionByName? g.name = some g ∧
        g.refusal = reasonIn repeatedNotices g.name ∧
        reasonIn repeatedNotices g.name = "a (b)") := by
  have hshown : (buildModel sharedNameSources [] repeatedNotices).toOption.map (fun m =>
      m.functions.map fun f => (f.name, f.file, m.homes.get? f.name)) =
      some [("f", "a.js", some "b.js"), ("f", "b.js", some "b.js")] := by decide +kernel
  have hreason : reasonIn repeatedNotices "f" = "a (b)" := by decide +kernel
  obtain ⟨m, hm, hfunctions⟩ := Option.map_eq_some_iff.mp hshown
  have hm := toOption_eq_some_iff.mp hm
  obtain ⟨hbase, hrefusals⟩ := (buildModel_log sharedNameSources [] repeatedNotices).2 m hm
  obtain ⟨created, hindexed⟩ := (finished_of_buildModel hm).indexed
  obtain ⟨f, rest, hlist, hf, hrest⟩ := List.map_eq_cons_iff.mp hfunctions
  obtain ⟨g, rest, rfl, hg, -⟩ := List.map_eq_cons_iff.mp hrest
  simp only [Prod.mk.injEq] at hf hg
  have hfmem : f ∈ m.functions := by simp [hlist]
  have hgmem : g ∈ m.functions := by simp [hlist]
  have hfhome : m.functionByName? f.name ≠ some f := by
    rw [ne_eq, hindexed.functionByName?_eq_some_iff hfmem, hf.2.2, hf.2.1]
    decide
  have hghome : m.functionByName? g.name = some g := by
    rw [hindexed.functionByName?_eq_some_iff hgmem, hg.2.2, hg.2.1]
  refine ⟨m, f, g, hm, hbase, ⟨hfmem, hfhome, (hrefusals f hfmem).2 hfhome⟩, hgmem, hghome,
    (hrefusals g hgmem).1 hghome, ?_⟩
  rw [hg.1, hreason]

end Model

end InlineReport
