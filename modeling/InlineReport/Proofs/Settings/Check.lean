import InlineReport.Proofs.Data.Outcome
import InlineReport.Proofs.Number.Whole
import InlineReport.Settings.Check
import InlineReport.Settings.Merge

/-!
# Checked tables over settings

A table of settings is read twice, by two rules that know nothing of each other. The check
is strict and tells what is wrong; laying the table over settings is lenient, and leaves a
setting as it was where the value cannot be used. Here the two are compared: **what passes
the check is taken as it is**. Every setting whose key is in the table has exactly the value
that stands there, and every other one is as before (`Settings.Follows`).

Two values pass the check without being what it is meant to let through:

* **The fraction that is no number** is not zero or less, so the check takes it for
  positive. It becomes the time limit, and is not above zero.
* **A whole number beyond the range of fractions** is positive, but no time limit can be
  made of it, and the whole table is refused.

There is no third one: `Settings.merge_of_checked`.
-/

namespace InlineReport

/-! ### Tables that pass the check -/

namespace RawSettings

variable {lim : Limits} {raw : RawSettings} {key : String} {test : Value → Bool}
  {fault : SettingsFault}

theorem checkText_eq_nil_iff :
    raw.checkText key = [] ↔ ∀ v, raw.get? key = some v → isFilled v = true := by
  unfold checkText
  cases raw.get? key with
  | none => simp
  | some v => simp

theorem checkOptional_eq_nil_iff :
    raw.checkOptional key test fault = [] ↔
      ∀ v, raw.get? key = some v → v = .null ∨ test v = true := by
  unfold checkOptional
  cases raw.get? key with
  | none => simp
  | some v => cases v <;> simp

theorem checkFlags_eq_nil_iff :
    raw.checkFlags key = [] ↔ ∀ v, raw.get? key = some v →
      ∃ items, v.items? raw.store = some items ∧ items.all isText = true ∧
        managedIn items = [] := by
  unfold checkFlags
  cases raw.get? key with
  | none => simp
  | some v => cases h : v.items? raw.store <;> simp [h]

/-- A table without a fault: what the parts of the check ask for, part by part. -/
structure Faultless (lim : Limits) (raw : RawSettings) : Prop where
  keys : raw.checkKeys lim = .ok []
  texts : ∀ key ∈ textKeys, ∀ v, raw.get? key = some v → isFilled v = true
  jsonPath : ∀ v, raw.get? "json_path" = some v → v = .null ∨ isFilled v = true
  traceFlags : ∀ v, raw.get? "trace_flags" = some v →
    ∃ items, v.items? raw.store = some items ∧ items.all isText = true ∧ managedIn items = []
  timeout : ∀ v, raw.get? "timeout_seconds" = some v → v = .null ∨ isPositive v = true

/-- **The check tells nothing** where no part of it finds a fault. -/
theorem check_eq_nil_iff : raw.check lim = .ok [] ↔ raw.Faultless lim := by
  unfold check
  constructor
  · intro h
    obtain ⟨unknown, hkeys, h⟩ := bind_eq_ok_iff.mp h
    simp only [pure, Except.pure, Except.ok.injEq, List.append_eq_nil_iff,
      List.flatMap_eq_nil_iff] at h
    obtain ⟨⟨⟨⟨rfl, htexts⟩, hpath⟩, hflags⟩, htimeout⟩ := h
    exact {
      keys := hkeys
      texts := fun key hkey => checkText_eq_nil_iff.mp (htexts key hkey)
      jsonPath := checkOptional_eq_nil_iff.mp hpath
      traceFlags := checkFlags_eq_nil_iff.mp hflags
      timeout := checkOptional_eq_nil_iff.mp htimeout }
  · intro h
    have htexts : textKeys.flatMap raw.checkText = [] :=
      List.flatMap_eq_nil_iff.mpr fun key hkey => checkText_eq_nil_iff.mpr (h.texts key hkey)
    rw [h.keys, htexts, checkOptional_eq_nil_iff.mpr h.jsonPath,
      checkFlags_eq_nil_iff.mpr h.traceFlags, checkOptional_eq_nil_iff.mpr h.timeout]
    rfl

end RawSettings

/-! ### What a value stands for -/

namespace Value

theorem exists_of_isFilled {v : Value} (h : RawSettings.isFilled v = true) :
    ∃ s, v = .string s := by
  cases v with
  | string s => exact ⟨s, rfl⟩
  | _ => exact absurd h (by simp [RawSettings.isFilled])

theorem exists_of_all_isText {items : List Value} (h : items.all RawSettings.isText = true) :
    ∃ texts : List WideText, items = texts.map .string := by
  induction items with
  | nil => exact ⟨[], rfl⟩
  | cons v items ih =>
    rw [List.all_cons, Bool.and_eq_true] at h
    obtain ⟨texts, rfl⟩ := ih h.2
    cases v with
    | string s => exact ⟨s :: texts, rfl⟩
    | _ => exact absurd h.1 (by simp [RawSettings.isText])

/-- A path that may be taken away, as it stands in a table. -/
inductive IsPath : Value → Option WideText → Prop
  | null : IsPath .null none
  | string (s : WideText) : IsPath (.string s) (some s)

/-- A time limit that may be taken away, as it stands in a table. -/
inductive IsTimeout : Value → Option Binary → Prop
  | null : IsTimeout .null none
  | fraction (x : Binary) (origin : Option Nat) : IsTimeout (.fraction x origin) (some x)
  | int {n : Int} {x : Binary} (hx : Binary.ofInt? n = some x) : IsTimeout (.int n) (some x)

end Value

namespace RawSettings

/-- What a table says about a setting: it is what the value of its key stands for, and what
it was before if there is no such key. -/
def Says {α : Type} (raw : RawSettings) (key : String) (stands : Value → α → Prop)
    (before now : α) : Prop :=
  match raw.get? key with
  | none => now = before
  | some v => stands v now

end RawSettings

namespace Settings

/-- Settings that hold exactly what a table says, and are as before for the rest. -/
structure Follows (base : Settings) (raw : RawSettings) (s : Settings) : Prop where
  node : raw.Says "node" (· = .string ·) base.node s.node
  traceFlags : raw.Says "trace_flags" (fun v texts => v.items? raw.store = some (texts.map .string))
    base.traceFlags s.traceFlags
  codeFile : raw.Says "code_trace_file" (· = .string ·) base.codeFile s.codeFile
  irFile : raw.Says "ir_trace_file" (· = .string ·) base.irFile s.irFile
  logFile : raw.Says "log_file" (· = .string ·) base.logFile s.logFile
  htmlPath : raw.Says "html_path" (· = .string ·) base.htmlPath s.htmlPath
  jsonPath : raw.Says "json_path" Value.IsPath base.jsonPath s.jsonPath
  title : raw.Says "title" (· = .string ·) base.title s.title
  timeout : raw.Says "timeout_seconds" Value.IsTimeout base.timeout s.timeout

variable {lim : Limits} {raw : RawSettings} {key : String}

theorem exists_mergeText (lim : Limits)
    (h : ∀ v, raw.get? key = some v → RawSettings.isFilled v = true)
    (base : WideText) :
    ∃ now, mergeText lim raw key base = .ok now ∧ raw.Says key (· = .string ·) base now := by
  unfold mergeText RawSettings.Says
  cases hv : raw.get? key with
  | none => exact ⟨base, rfl, rfl⟩
  | some v =>
    obtain ⟨s, rfl⟩ := Value.exists_of_isFilled (h v hv)
    exact ⟨s, rfl, rfl⟩

theorem exists_mergePath (lim : Limits)
    (h : ∀ v, raw.get? key = some v → v = .null ∨ RawSettings.isFilled v = true)
    (base : Option WideText) :
    ∃ now, mergePath lim raw key base = .ok now ∧ raw.Says key Value.IsPath base now := by
  unfold mergePath RawSettings.Says
  cases hv : raw.get? key with
  | none => exact ⟨base, rfl, rfl⟩
  | some v =>
    obtain rfl | hfilled := h v hv
    · exact ⟨none, rfl, .null⟩
    · obtain ⟨s, rfl⟩ := Value.exists_of_isFilled hfilled
      exact ⟨some s, rfl, .string s⟩

theorem exists_mergeTexts (lim : Limits)
    (h : ∀ v, raw.get? key = some v →
      ∃ items, v.items? raw.store = some items ∧ items.all RawSettings.isText = true ∧
        RawSettings.managedIn items = [])
    (base : List WideText) :
    ∃ now, mergeTexts lim raw key base = .ok now ∧
      raw.Says key (fun v texts => v.items? raw.store = some (texts.map .string)) base now := by
  unfold mergeTexts RawSettings.Says
  cases hv : raw.get? key with
  | none => exact ⟨base, rfl, rfl⟩
  | some v =>
    obtain ⟨items, hitems, htexts, -⟩ := h v hv
    obtain ⟨texts, rfl⟩ := Value.exists_of_all_isText htexts
    have hmap := mapM_map_eq_ok (f := Value.text lim raw.store) (g := Value.string) (k := id)
      (l := texts) fun s _ => rfl
    rw [List.map_id] at hmap
    exact ⟨texts, by simpa [hitems] using hmap, hitems⟩

/-- Whether the time limit of a table is a whole number that no fraction is nearest to. -/
def Oversized (raw : RawSettings) : Prop :=
  ∃ n : Int, raw.get? "timeout_seconds" = some (.int n) ∧ Binary.leastBeyond ≤ n.natAbs

theorem exists_mergeFraction
    (h : ∀ v, raw.get? "timeout_seconds" = some v → v = .null ∨ RawSettings.isPositive v = true)
    (hsize : ¬ Oversized raw) (base : Option Binary) :
    ∃ now, mergeFraction raw "timeout_seconds" base = .ok now ∧
      raw.Says "timeout_seconds" Value.IsTimeout base now := by
  unfold mergeFraction RawSettings.Says
  cases hv : raw.get? "timeout_seconds" with
  | none => exact ⟨base, rfl, rfl⟩
  | some v =>
    obtain rfl | hpositive := h v hv
    · exact ⟨none, rfl, .null⟩
    · cases v with
      | int n =>
        have hne : Binary.ofInt? n ≠ none := fun hnone =>
          hsize ⟨n, hv, Binary.ofInt?_eq_none_iff.mp hnone⟩
        obtain ⟨x, hx⟩ := Option.ne_none_iff_exists'.mp hne
        refine ⟨some x, ?_, .int hx⟩
        simp [Value.fraction?, hx, Except.map]
      | fraction x origin => exact ⟨some x, rfl, .fraction x origin⟩
      | _ => exact absurd hpositive (by simp [RawSettings.isPositive])

theorem mergeFraction_of_oversized (hsize : Oversized raw) (base : Option Binary) :
    mergeFraction raw "timeout_seconds" base = .error Overrun.fraction := by
  obtain ⟨n, hn, hle⟩ := hsize
  simp [mergeFraction, hn, Value.fraction?, Binary.ofInt?_eq_none_iff.mpr hle, Except.map]

/-- Only the time limit of a table that passes the check decides whether it is laid over
settings. -/
theorem exists_merge (h : raw.Faultless lim) (base : Settings) :
    ∃ s : Settings,
      (merge lim base raw =
        (mergeFraction raw "timeout_seconds" base.timeout).map fun timeout => { s with timeout }) ∧
      ∀ timeout, raw.Says "timeout_seconds" Value.IsTimeout base.timeout timeout →
        Follows base raw { s with timeout } := by
  have htext (key : String) (hkey : key ∈ RawSettings.textKeys) :=
    exists_mergeText lim (h.texts key hkey)
  obtain ⟨traceFlags, hflags, hflags'⟩ := exists_mergeTexts lim h.traceFlags base.traceFlags
  obtain ⟨node, hnode, hnode'⟩ := htext "node" (by decide) base.node
  obtain ⟨codeFile, hcode, hcode'⟩ := htext "code_trace_file" (by decide) base.codeFile
  obtain ⟨irFile, hir, hir'⟩ := htext "ir_trace_file" (by decide) base.irFile
  obtain ⟨logFile, hlog, hlog'⟩ := htext "log_file" (by decide) base.logFile
  obtain ⟨htmlPath, hhtml, hhtml'⟩ := htext "html_path" (by decide) base.htmlPath
  obtain ⟨jsonPath, hjson, hjson'⟩ := exists_mergePath lim h.jsonPath base.jsonPath
  obtain ⟨title, htitle, htitle'⟩ := htext "title" (by decide) base.title
  refine ⟨{ node, traceFlags, codeFile, irFile, logFile, htmlPath, jsonPath, title }, ?_,
    fun timeout htimeout =>
      ⟨hnode', hflags', hcode', hir', hlog', hhtml', hjson', htitle', htimeout⟩⟩
  simp only [merge, hflags, hnode, hcode, hir, hlog, hhtml, hjson, htitle]
  cases mergeFraction raw "timeout_seconds" base.timeout <;> rfl

/-- The time limit that stands for a positive value is above zero unless it is no number. -/
theorem zero_less_iff_of_isTimeout {v : Value} {x : Binary} (h : v.IsTimeout (some x))
    (hpositive : RawSettings.isPositive v = true) :
    (Binary.zero false).less x = true ↔ x ≠ .nan := by
  cases h with
  | fraction _ origin =>
    have hx : x.nonPositive = false := by simpa [RawSettings.isPositive] using hpositive
    simp [Binary.zero_less_iff, hx]
  | @int n _ hx =>
    have hn : 0 < n := by simpa [RawSettings.isPositive] using hpositive
    have hless := Binary.zero_less_of_ofInt? hn hx
    exact iff_of_true hless (Binary.zero_less_iff.mp hless).2

/-- **A table that passes the check** is refused if its time limit is a whole number beyond the
range of fractions. Otherwise it can be laid over any settings, the result holds exactly what
the table says and is as before for the rest, and a time limit that is not null is above zero
unless it is the fraction that is no number. -/
theorem merge_of_checked (h : raw.check lim = .ok []) (base : Settings) :
    (Oversized raw → merge lim base raw = .error Overrun.fraction) ∧
    (¬ Oversized raw → ∃ s, merge lim base raw = .ok s ∧ Follows base raw s ∧
      ∀ v, raw.get? "timeout_seconds" = some v → v ≠ .null →
        ∃ x, s.timeout = some x ∧ ((Binary.zero false).less x = true ↔ x ≠ .nan)) := by
  have hfaultless := RawSettings.check_eq_nil_iff.mp h
  obtain ⟨s, hmerge, hfollows⟩ := exists_merge hfaultless base
  constructor
  · intro hsize
    rw [hmerge, mergeFraction_of_oversized hsize]
    rfl
  · intro hsize
    obtain ⟨timeout, htimeout, hsays⟩ :=
      exists_mergeFraction hfaultless.timeout hsize base.timeout
    refine ⟨{ s with timeout }, by rw [hmerge, htimeout]; rfl, hfollows timeout hsays, ?_⟩
    intro v hv hnull
    have hpositive := (hfaultless.timeout v hv).resolve_left hnull
    rw [RawSettings.Says, hv] at hsays
    cases timeout with
    | none => cases hsays; exact absurd rfl hnull
    | some x => exact ⟨x, rfl, zero_less_iff_of_isTimeout hsays hpositive⟩

/-- A table that passes the check: two texts, two flags, and a time limit. -/
def plainTable : RawSettings where
  store := #[.list [.string (wide "--trace-deopt"), .string (wide "--trace-inlining")]]
  entries :=
    [(.string (wide "node"), .string (wide "/opt/node")),
     (.string (wide "trace_flags"), .container 0),
     (.string (wide "json_path"), .null),
     (.string (wide "timeout_seconds"), .int 30)]

theorem merge_of_checked_plainTable :
    plainTable.check .usual = .ok [] ∧ ¬ Oversized plainTable ∧
      ∃ s, merge .usual {} plainTable = .ok s ∧ Follows {} plainTable s ∧
        ∃ x, s.timeout = some x ∧ (Binary.zero false).less x = true := by
  have hcheck : plainTable.check .usual = .ok [] := by rfl
  have hlimit : plainTable.get? "timeout_seconds" = some (.int 30) := by decide +kernel
  have hsize : ¬ Oversized plainTable := by
    rintro ⟨n, hn, hle⟩
    rw [hlimit, Option.some.injEq, Value.int.injEq] at hn
    subst hn
    exact absurd hle (by decide +kernel)
  obtain ⟨s, hmerge, hfollows, hless⟩ := (merge_of_checked hcheck {}).2 hsize
  obtain ⟨x, hx, hiff⟩ := hless _ hlimit (by simp)
  have hsays := hfollows.timeout
  rw [RawSettings.Says, hlimit, hx] at hsays
  refine ⟨hcheck, hsize, s, hmerge, hfollows, x, hx, hiff.mpr ?_⟩
  rintro rfl
  cases hsays with
  | int h30 => exact absurd h30 (by decide +kernel)

/-- A table with a time limit and nothing else. -/
def limitTable (limit : Value) : RawSettings where
  entries := [(.string (wide "timeout_seconds"), limit)]

/-- The two tables that pass the check and are not taken as they are: the fraction that is no
number becomes a time limit that is not above zero, and a whole number that is too large makes
the table unusable. -/
theorem misused_limits :
    ((limitTable (.fraction .nan none)).check .usual = .ok [] ∧
      (∃ s, merge .usual {} (limitTable (.fraction .nan none)) = .ok s ∧ s.timeout = some .nan) ∧
      (Binary.zero false).less .nan = false) ∧
    (limitTable (.int Binary.leastBeyond)).check .usual = .ok [] ∧
      merge .usual {} (limitTable (.int Binary.leastBeyond)) = .error Overrun.fraction := by
  refine ⟨⟨rfl, ⟨_, rfl, rfl⟩, rfl⟩, ?_⟩
  have hcheck : (limitTable (.int Binary.leastBeyond)).check .usual = .ok [] :=
    toOption_eq_some_iff.mp (by decide +kernel)
  have hsize : Oversized (limitTable (.int Binary.leastBeyond)) :=
    ⟨Binary.leastBeyond, by decide +kernel, (Int.natAbs_natCast Binary.leastBeyond).ge⟩
  obtain ⟨s, hmerge, -⟩ := exists_merge (RawSettings.check_eq_nil_iff.mp hcheck) {}
  refine ⟨hcheck, ?_⟩
  rw [hmerge, mergeFraction_of_oversized hsize]
  rfl

end Settings

end InlineReport
