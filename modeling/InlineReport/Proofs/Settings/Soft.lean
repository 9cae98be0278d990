import InlineReport.Proofs.Data.Written
import InlineReport.Proofs.Settings.Check
import InlineReport.Proofs.Settings.Load

/-!
# Settings files that cannot be used

Loading settings is lenient. A file that is missing, cannot be read or holds no table is passed
over with a warning, and a value that cannot be used leaves its setting as it was. This is meant
to hold of every file. It does, but for values that are beyond what is handled: **a whole number
of too many digits or containers that are nested too deeply** where a text is made of them, and
**a whole number beyond the range of fractions** as the time limit (`Settings.Unusable`).

A table with such a value for a setting makes the whole load fail; no other table does
(`Settings.runIn_load_of_kinds`).
-/

namespace InlineReport

namespace Settings

variable {lim : Limits} {raw : RawSettings} {key : String} {base s : Settings} {e : Failure}
  {limit : Overrun}

/-- Why a table cannot be laid over settings. -/
inductive Unusable (lim : Limits) (raw : RawSettings) : Overrun → Prop
  | text {key : String} {v : Value} {limit : Overrun}
      (hkey : key ∈ RawSettings.textKeys ++ ["json_path"]) (hv : raw.get? key = some v)
      (h : v.Unwritable lim raw.store limit) : Unusable lim raw limit
  | flag {v item : Value} {items : List Value} {limit : Overrun}
      (hv : raw.get? "trace_flags" = some v) (hitems : v.items? raw.store = some items)
      (hitem : item ∈ items) (h : item.Unwritable lim raw.store limit) : Unusable lim raw limit
  | timeout (h : Oversized raw) : Unusable lim raw .fraction

/-! ### The settings one by one -/

theorem not_unwritable_null {store : Store} : ¬ Value.null.Unwritable lim store limit := fun h =>
  Value.not_isLong_of_ne_int (by simp) ((Value.unwritable_iff_of_isKey rfl).mp h).2

theorem mergeText_of_ne_null {before : WideText} {v : Value} (hv : raw.get? key = some v)
    (hnull : v ≠ .null) : mergeText lim raw key before = v.text lim raw.store := by
  unfold mergeText
  rw [hv]
  cases v with
  | null => exact absurd rfl hnull
  | _ => rfl

theorem mergePath_of_ne_null {before : Option WideText} {v : Value} (hv : raw.get? key = some v)
    (hnull : v ≠ .null) : mergePath lim raw key before = (v.text lim raw.store).map some := by
  unfold mergePath
  rw [hv]
  cases v with
  | null => exact absurd rfl hnull
  | _ => rfl

/-- A text is taken from a table unless its value cannot be written. -/
theorem exists_mergeText_iff {before : WideText} :
    (∃ now, mergeText lim raw key before = .ok now) ↔
      ∀ v, raw.get? key = some v → ∀ limit, ¬ v.Unwritable lim raw.store limit := by
  cases hv : raw.get? key with
  | none => exact iff_of_true ⟨before, by simp [mergeText, hv]⟩ (by simp)
  | some v =>
    by_cases hnull : v = .null
    · subst hnull
      exact iff_of_true ⟨before, by simp [mergeText, hv]⟩ (by simp [not_unwritable_null])
    · simp [mergeText_of_ne_null hv hnull, Value.exists_text_iff]

theorem exists_mergePath_iff {before : Option WideText} :
    (∃ now, mergePath lim raw key before = .ok now) ↔
      ∀ v, raw.get? key = some v → ∀ limit, ¬ v.Unwritable lim raw.store limit := by
  cases hv : raw.get? key with
  | none => exact iff_of_true ⟨before, by simp [mergePath, hv]⟩ (by simp)
  | some v =>
    by_cases hnull : v = .null
    · subst hnull
      exact iff_of_true ⟨none, by simp [mergePath, hv]⟩ (by simp [not_unwritable_null])
    · simp [mergePath_of_ne_null hv hnull, exists_map_eq_ok_iff, Value.exists_text_iff]

theorem exists_mergeTexts_iff {before : List WideText} :
    (∃ now, mergeTexts lim raw key before = .ok now) ↔
      ∀ items, (raw.get? key).bind (Value.items? raw.store) = some items →
        ∀ item ∈ items, ∀ limit, ¬ item.Unwritable lim raw.store limit := by
  unfold mergeTexts
  cases (raw.get? key).bind (Value.items? raw.store) with
  | none => simp
  | some items => simp [exists_mapM_eq_ok_iff, Value.exists_text_iff]

theorem exists_mergeFraction_iff {before : Option Binary} :
    (∃ now, mergeFraction raw "timeout_seconds" before = .ok now) ↔ ¬ Oversized raw := by
  constructor
  · rintro ⟨now, hnow⟩ hsize
    rw [mergeFraction_of_oversized hsize] at hnow
    cases hnow
  · intro hsize
    unfold mergeFraction
    cases hv : raw.get? "timeout_seconds" with
    | none => exact ⟨_, rfl⟩
    | some v =>
      cases v with
      | null => exact ⟨_, rfl⟩
      | int n =>
        have hne : Binary.ofInt? n ≠ none := fun hnone =>
          hsize ⟨n, hv, Binary.ofInt?_eq_none_iff.mp hnone⟩
        obtain ⟨x, hx⟩ := Option.ne_none_iff_exists'.mp hne
        exact ⟨some x, by simp [Value.fraction?, hx, Except.map]⟩
      | _ => exact ⟨_, rfl⟩

/-! ### What is refused, and why -/

theorem exists_of_mergeText {before : WideText} (h : mergeText lim raw key before = .error e) :
    ∃ v limit, raw.get? key = some v ∧ e = .overrun limit ∧ v.Unwritable lim raw.store limit := by
  unfold mergeText at h
  split at h
  · cases h
  · cases h
  next v _ hv =>
    obtain ⟨limit, he, hlimit⟩ := Value.unwritable_of_text h
    exact ⟨v, limit, hv, he, hlimit⟩

theorem exists_of_mergePath {before : Option WideText}
    (h : mergePath lim raw key before = .error e) :
    ∃ v limit, raw.get? key = some v ∧ e = .overrun limit ∧ v.Unwritable lim raw.store limit := by
  unfold mergePath at h
  split at h
  · cases h
  · cases h
  next v _ hv =>
    obtain ⟨limit, he, hlimit⟩ := Value.unwritable_of_text (map_eq_error_iff.mp h)
    exact ⟨v, limit, hv, he, hlimit⟩

theorem unusable_of_mergeTexts {before : List WideText}
    (h : mergeTexts lim raw "trace_flags" before = .error e) :
    ∃ limit, e = .overrun limit ∧ Unusable lim raw limit := by
  unfold mergeTexts at h
  split at h
  · cases h
  next items hfound =>
    obtain ⟨v, hv, hitems⟩ := Option.bind_eq_some_iff.mp hfound
    obtain ⟨item, hitem, h⟩ := exists_mem_of_mapM_eq_error h
    obtain ⟨limit, he, hlimit⟩ := Value.unwritable_of_text h
    exact ⟨limit, he, .flag hv hitems hitem hlimit⟩

theorem unusable_of_mergeFraction {before : Option Binary}
    (h : mergeFraction raw "timeout_seconds" before = .error e) :
    ∃ limit, e = .overrun limit ∧ Unusable lim raw limit := by
  have hsize : Oversized raw := by
    by_contra hsize
    obtain ⟨now, hnow⟩ := exists_mergeFraction_iff.mpr hsize
    rw [hnow] at h
    cases h
  rw [mergeFraction_of_oversized hsize] at h
  exact ⟨.fraction, (Except.error.inj h).symm, .timeout hsize⟩

/-! ### Tables -/

/-- **A table that is refused** has a value that is beyond what is handled. -/
theorem unusable_of_merge (h : merge lim base raw = .error e) :
    ∃ limit, e = .overrun limit ∧ Unusable lim raw limit := by
  have htext {key : String} {before : WideText} (hkey : key ∈ RawSettings.textKeys)
      (h : mergeText lim raw key before = .error e) :
      ∃ limit, e = .overrun limit ∧ Unusable lim raw limit := by
    obtain ⟨v, limit, hv, he, hlimit⟩ := exists_of_mergeText h
    exact ⟨limit, he, .text (List.mem_append_left _ hkey) hv hlimit⟩
  obtain h | ⟨_, -, h⟩ := bind_eq_error_iff.mp h
  · exact unusable_of_mergeTexts h
  obtain h | ⟨_, -, h⟩ := bind_eq_error_iff.mp h
  · exact htext (by decide) h
  obtain h | ⟨_, -, h⟩ := bind_eq_error_iff.mp h
  · exact htext (by decide) h
  obtain h | ⟨_, -, h⟩ := bind_eq_error_iff.mp h
  · exact htext (by decide) h
  obtain h | ⟨_, -, h⟩ := bind_eq_error_iff.mp h
  · exact htext (by decide) h
  obtain h | ⟨_, -, h⟩ := bind_eq_error_iff.mp h
  · exact htext (by decide) h
  obtain h | ⟨_, -, h⟩ := bind_eq_error_iff.mp h
  · obtain ⟨v, limit, hv, he, hlimit⟩ := exists_of_mergePath h
    exact ⟨limit, he, .text (by decide) hv hlimit⟩
  obtain h | ⟨_, -, h⟩ := bind_eq_error_iff.mp h
  · exact htext (by decide) h
  obtain h | ⟨_, -, ⟨⟩⟩ := bind_eq_error_iff.mp h
  exact unusable_of_mergeFraction h

/-- **A table is laid over settings** unless it has such a value. -/
theorem exists_merge_iff :
    (∃ s, merge lim base raw = .ok s) ↔ ∀ limit, ¬ Unusable lim raw limit := by
  refine exists_eq_ok_iff_forall_not ?_ fun e he => ?_
  · intro s h limit hlimit
    obtain ⟨traceFlags, hflags, h⟩ := bind_eq_ok_iff.mp h
    obtain ⟨node, hnode, h⟩ := bind_eq_ok_iff.mp h
    obtain ⟨codeFile, hcode, h⟩ := bind_eq_ok_iff.mp h
    obtain ⟨irFile, hir, h⟩ := bind_eq_ok_iff.mp h
    obtain ⟨logFile, hlog, h⟩ := bind_eq_ok_iff.mp h
    obtain ⟨htmlPath, hhtml, h⟩ := bind_eq_ok_iff.mp h
    obtain ⟨jsonPath, hjson, h⟩ := bind_eq_ok_iff.mp h
    obtain ⟨title, htitle, h⟩ := bind_eq_ok_iff.mp h
    obtain ⟨timeout, htimeout, -⟩ := bind_eq_ok_iff.mp h
    cases hlimit with
    | @text key v _ hkey hv hlimit =>
      have hwritten : ∀ key ∈ RawSettings.textKeys ++ ["json_path"], ∀ v, raw.get? key = some v →
          ∀ limit, ¬ v.Unwritable lim raw.store limit := by
        simp only [RawSettings.textKeys, List.cons_append, List.nil_append, List.forall_mem_cons]
        exact ⟨exists_mergeText_iff.mp ⟨_, hnode⟩, exists_mergeText_iff.mp ⟨_, hcode⟩,
          exists_mergeText_iff.mp ⟨_, hir⟩, exists_mergeText_iff.mp ⟨_, hlog⟩,
          exists_mergeText_iff.mp ⟨_, hhtml⟩, exists_mergeText_iff.mp ⟨_, htitle⟩,
          exists_mergePath_iff.mp ⟨_, hjson⟩, by simp⟩
      exact hwritten key hkey v hv limit hlimit
    | flag hv hitems hitem hlimit =>
      exact exists_mergeTexts_iff.mp ⟨_, hflags⟩ _ (Option.bind_eq_some_iff.mpr ⟨_, hv, hitems⟩) _
        hitem limit hlimit
    | timeout hsize => exact exists_mergeFraction_iff.mp ⟨_, htimeout⟩ hsize
  · obtain ⟨limit, -, hlimit⟩ := unusable_of_merge he
    exact ⟨limit, hlimit⟩

/-! ### Files -/

variable {w : World} {p : Path} {paths : List Path}

/-- What a file with a table makes of settings, if it can be told whether files are there. -/
theorem laidOverAt_eq (hkind : ∃ kind, w.tree.kindAt? p = .ok kind) :
    laidOverAt w base p = ((tableAt? w p).map (merge w.limits base)).getD (.ok base) := by
  obtain ⟨kind, hkind⟩ := hkind
  rw [laidOverAt, hkind]
  rfl

theorem exists_laidOverAt_iff (hkind : ∃ kind, w.tree.kindAt? p = .ok kind) :
    (∃ s, laidOverAt w base p = .ok s) ↔
      ∀ raw, tableAt? w p = some raw → ∀ limit, ¬ Unusable w.limits raw limit := by
  rw [laidOverAt_eq hkind]
  cases tableAt? w p with
  | none => simp
  | some raw => simpa using exists_merge_iff

theorem unusable_of_laidOverAt (hkind : ∃ kind, w.tree.kindAt? p = .ok kind)
    (h : laidOverAt w base p = .error e) :
    ∃ raw limit, tableAt? w p = some raw ∧ e = .overrun limit ∧ Unusable w.limits raw limit := by
  rw [laidOverAt_eq hkind] at h
  cases htable : tableAt? w p with
  | none =>
    rw [htable] at h
    cases h
  | some raw =>
    rw [htable] at h
    obtain ⟨limit, he, hlimit⟩ := unusable_of_merge h
    exact ⟨raw, limit, rfl, he, hlimit⟩

/-- Files are laid over settings where each of them can be, whatever the settings are. -/
theorem exists_foldlM_laidOverAt_iff (hkinds : ∀ p ∈ paths, ∃ kind, w.tree.kindAt? p = .ok kind) :
    (∃ s, paths.foldlM (laidOverAt w) base = .ok s) ↔
      ∀ p ∈ paths, ∀ raw, tableAt? w p = some raw → ∀ limit, ¬ Unusable w.limits raw limit := by
  induction paths generalizing base with
  | nil => exact iff_of_true ⟨base, rfl⟩ (by simp)
  | cons p paths ih =>
    obtain ⟨hkind, hrest⟩ := List.forall_mem_cons.mp hkinds
    rw [List.foldlM_cons, exists_bind_eq_ok_iff, List.forall_mem_cons]
    constructor
    · rintro ⟨next, hnext, h⟩
      exact ⟨(exists_laidOverAt_iff hkind).mp ⟨next, hnext⟩, (ih hrest).mp h⟩
    · rintro ⟨hfirst, h⟩
      obtain ⟨next, hnext⟩ := (exists_laidOverAt_iff hkind).mpr hfirst
      exact ⟨next, hnext, (ih hrest).mpr h⟩

theorem unusable_of_foldlM_laidOverAt (hkinds : ∀ p ∈ paths, ∃ kind, w.tree.kindAt? p = .ok kind)
    (h : paths.foldlM (laidOverAt w) base = .error e) :
    ∃ p ∈ paths, ∃ raw limit, tableAt? w p = some raw ∧ e = .overrun limit ∧
      Unusable w.limits raw limit := by
  induction paths generalizing base with
  | nil => cases h
  | cons p paths ih =>
    obtain ⟨hkind, hrest⟩ := List.forall_mem_cons.mp hkinds
    rw [List.foldlM_cons] at h
    rcases bind_eq_error_iff.mp h with h | ⟨next, -, h⟩
    · exact ⟨p, List.mem_cons_self, unusable_of_laidOverAt hkind h⟩
    · exact (ih hrest h).imp fun _ => And.imp_left (List.mem_cons_of_mem p)

/-- **Loading settings** ends with settings unless one of the files has a table with a value that
is beyond what is handled, if it can be told for each file whether it is there. Each setting is
then what the last of the files gives that has something usable for it, or else the default, and
the log has a warning for each file that is passed over. -/
theorem runIn_load_of_kinds (folder : Path) (files : Option (List Path)) (w : World)
    (hkinds : ∀ p ∈ pathsIn folder files, ∃ kind, w.tree.kindAt? p = .ok kind) :
    ∃ result lines, (load folder files : Session Settings).runIn w =
        (result, { w with log := w.log ++ lines }) ∧
      ((∃ s, result = .ok s) ↔ ∀ p ∈ pathsIn folder files, ∀ raw, tableAt? w p = some raw →
        ∀ limit, ¬ Unusable w.limits raw limit) ∧
      (∀ s, result = .ok s →
        Effective w.limits {} ((pathsIn folder files).filterMap (tableAt? w)) s ∧
          lines = warningsIn w folder files) ∧
      ∀ e, result = .error e → ∃ p ∈ pathsIn folder files, ∃ raw limit,
        tableAt? w p = some raw ∧ e = .overrun limit ∧ Unusable w.limits raw limit := by
  obtain ⟨lines, hrun, hlines⟩ := runIn_load folder files w
  refine ⟨_, lines, hrun, exists_foldlM_laidOverAt_iff hkinds, fun s hs => ⟨?_, hlines s hs⟩,
    fun e he => unusable_of_foldlM_laidOverAt hkinds he⟩
  exact effective_of_foldlM_merge {} (foldlM_merge_of_laidOverAt hs)

/-- A world with two settings files, one of them ill-formed. -/
def twoFiles : World :=
  .usual { entries := [
    ([wide "a.yml"], .file (Utf8.encode "node: 7\n".toList)),
    ([wide "bad.yml"], .file (Utf8.encode "[".toList))] }
    (.ofString "/") fun _ t => (.timedOut, t)

/-- The names of these files and of another one. -/
def threeNames : List Path := ["bad.yml", "a.yml", "no.yml"].map Path.ofString

theorem runIn_load_of_kinds_twoFiles :
    (∀ p ∈ pathsIn (.ofString "/") threeNames, ∃ kind, twoFiles.tree.kindAt? p = .ok kind) ∧
    ∃ s w', (load (.ofString "/") threeNames : Session Settings).runIn twoFiles = (.ok s, w') ∧
      s.node = wide "7" ∧
      w'.log = [warning "Failed to load " (.ofString "/bad.yml") " (...). Skipping.",
        warning "Config " (.ofString "/no.yml") " not found; skipping."] := by
  have hkinds : ∀ p ∈ pathsIn (.ofString "/") threeNames,
      ∃ kind, twoFiles.tree.kindAt? p = .ok kind := by
    have hall : (pathsIn (.ofString "/") threeNames).all
        (fun p => (twoFiles.tree.kindAt? p).toOption.isSome) = true := by decide +kernel
    intro p hp
    obtain ⟨kind, hkind⟩ := Option.isSome_iff_exists.mp (List.all_eq_true.mp hall p hp)
    exact ⟨kind, toOption_eq_some_iff.mp hkind⟩
  obtain ⟨result, lines, hrun, -, hok, -⟩ := runIn_load_of_kinds _ _ _ hkinds
  have hresult : ((load (.ofString "/") threeNames : Session Settings).runIn
      twoFiles).1.toOption.map (·.node) = some (wide "7") := by decide +kernel
  rw [hrun] at hresult
  obtain ⟨s, hs, hnode⟩ := Option.map_eq_some_iff.mp hresult
  obtain rfl := toOption_eq_some_iff.mp hs
  obtain ⟨-, rfl⟩ := hok s rfl
  exact ⟨hkinds, s, _, hrun, hnode, by decide +kernel⟩

/-- A world with a settings file whose time limit is the whole number `2 ^ 1024`, written in
digits of base sixteen. -/
def hugeLimit : World :=
  .usual { entries := [([wide "huge.yml"], .file (Utf8.encode
    ("node: x\ntimeout_seconds: 0x1".toList ++ List.replicate 256 '0' ++ ['\n'])))] }
    (.ofString "/") fun _ t => (.timedOut, t)

/-- **A time limit beyond the range of fractions** is not passed over: nothing is loaded. -/
theorem load_hugeLimit :
    hugeLimit.tree.kindAt? (.ofString "/huge.yml") = .ok (some .file) ∧
    ((load (.ofString "/") (some [.ofString "huge.yml"]) : Session Settings).runIn hugeLimit).1 =
      .error Overrun.fraction :=
  ⟨by decide +kernel, by decide +kernel⟩

end Settings

end InlineReport
