import InlineReport.Proofs.Data.Written
import InlineReport.Proofs.Settings.Load
import InlineReport.Proofs.Yaml.Keys

/-!
# Keys without a meaning

The check of settings files is strict: it tells of every key that has no meaning. It tells of
them in their order, and this is more than it can always do. Keys have an order only if they are
of one sort, and a key has a text only if it is not a number of too many digits; no other key is
in the way if the keys of a table are no containers. Where one of a file is, the check of all
files ends without an answer (`RawSettings.Uncheckable`).

**Otherwise no key is left out**: the complaints about the files have one for every key without a
meaning in any of them (`Settings.runIn_checkFiles`).

The loader of the world is supposed to make tables of keys that are no containers
(`World.KeyedLoads`); nothing else is supposed about it. The usual loader does
(`World.keyedLoads_usual`).
-/

namespace InlineReport

/-! ### Keys in their order -/

namespace Value

variable {keys : List Value}

/-- Whether keys can be put in order: there is one at most, or all are of one sort. -/
def Sortable (keys : List Value) : Prop :=
  keys.length ≤ 1 ∨ ∃ sort, ∀ key ∈ keys, key.keySort? = some sort

/-- The test for keys that can be put in order compares them with the first one. -/
theorem all_keySort?_iff {first : Value} {more : List Value} :
    (first.keySort?.isSome && (first :: more).all (·.keySort? == first.keySort?)) = true ↔
      ∃ sort, ∀ key ∈ first :: more, key.keySort? = some sort := by
  rw [Bool.and_eq_true, Option.isSome_iff_exists, List.all_eq_true]
  constructor
  · rintro ⟨⟨sort, hsort⟩, hall⟩
    exact ⟨sort, fun key hkey => (eq_of_beq (hall key hkey)).trans hsort⟩
  · rintro ⟨sort, hall⟩
    have hfirst := hall first List.mem_cons_self
    exact ⟨⟨sort, hfirst⟩, fun key hkey => beq_iff_eq.mpr ((hall key hkey).trans hfirst.symm)⟩

theorem exists_sortKeys (h : Sortable keys) :
    ∃ sorted, sortKeys keys = .ok sorted ∧ sorted.Perm keys := by
  match keys with
  | [] => exact ⟨[], rfl, .refl _⟩
  | [key] => exact ⟨[key], rfl, .refl _⟩
  | first :: second :: more =>
    have hsort := h.resolve_left (by simp)
    exact ⟨_, if_pos (all_keySort?_iff.mpr hsort), List.mergeSort_perm _ _⟩

theorem sortKeys_of_not_sortable (h : ¬ Sortable keys) : sortKeys keys = .error Overrun.order := by
  match keys with
  | [] => exact absurd (.inl (by simp)) h
  | [key] => exact absurd (.inl (by simp)) h
  | first :: second :: more =>
    exact if_neg fun hsort => h (.inr (all_keySort?_iff.mp hsort))

theorem perm_of_sortKeys {sorted : List Value} (h : sortKeys keys = .ok sorted) :
    sorted.Perm keys := by
  by_cases hsort : Sortable keys
  · obtain ⟨sorted', hsorted', hperm⟩ := exists_sortKeys hsort
    rw [hsorted'] at h
    exact Except.ok.inj h ▸ hperm
  · rw [sortKeys_of_not_sortable hsort] at h
    cases h

end Value

/-! ### Tables -/

namespace RawSettings

variable {lim : Limits} {raw : RawSettings} {key : Value} {e : Failure}
  {faults : List SettingsFault}

/-- The keys of a table that have no meaning. -/
def unknown (raw : RawSettings) : List Value := (raw.entries.map (·.1)).filter (!isKnown ·)

theorem mem_unknown_iff :
    key ∈ raw.unknown ↔ (∃ value, (key, value) ∈ raw.entries) ∧ isKnown key = false := by
  simp [unknown]

/-- Why a table cannot be checked: its keys without a meaning have no order, or one of them has
too many digits. -/
inductive Uncheckable (raw : RawSettings) : Overrun → Prop
  | order (h : ¬ Value.Sortable raw.unknown) : Uncheckable raw .order
  | digits (h : Value.Sortable raw.unknown) {key : Value} (hkey : key ∈ raw.unknown)
      (hlong : key.IsLong) : Uncheckable raw .digits

theorem checkKeys_of_order (h : ¬ Value.Sortable raw.unknown) :
    raw.checkKeys lim = .error Overrun.order := by
  change Value.sortKeys raw.unknown >>= _ = _
  rw [Value.sortKeys_of_not_sortable h]
  rfl

/-- A key has a text unless it is a number of too many digits. -/
theorem exists_text_of_isKey {store : Store} (hkey : key.isKey = true) :
    (∃ t, key.text lim store = .ok t) ↔ ¬ key.IsLong := by
  rw [Value.exists_text_iff]
  simp [Value.unwritable_iff_of_isKey hkey]

theorem uncheckable_of_checkKeys (hkeys : ∀ entry ∈ raw.entries, entry.1.isKey = true)
    (h : raw.checkKeys lim = .error e) : ∃ limit, e = .overrun limit ∧ raw.Uncheckable limit := by
  by_cases hsort : Value.Sortable raw.unknown
  · obtain ⟨sorted, hsorted, hperm⟩ := Value.exists_sortKeys hsort
    change Value.sortKeys raw.unknown >>= _ = _ at h
    rw [hsorted] at h
    obtain ⟨key, hkey, h⟩ := exists_mem_of_mapM_eq_error h
    have hunknown := hperm.mem_iff.mp hkey
    obtain ⟨⟨value, hentry⟩, -⟩ := mem_unknown_iff.mp hunknown
    have htext : key.text lim raw.store = .error e := by
      rcases bind_eq_error_iff.mp h with h | ⟨_, -, ⟨⟩⟩
      exact h
    obtain ⟨limit, rfl, hlimit⟩ := Value.unwritable_of_text htext
    obtain ⟨rfl, hlong⟩ := (Value.unwritable_iff_of_isKey (hkeys _ hentry)).mp hlimit
    exact ⟨.digits, rfl, .digits hsort hunknown hlong⟩
  · rw [checkKeys_of_order hsort] at h
    cases h
    exact ⟨.order, rfl, .order hsort⟩

/-- Each key without a meaning is complained about. -/
theorem mem_of_checkKeys (h : raw.checkKeys lim = .ok faults) (hkey : key ∈ raw.unknown) :
    ∃ text, key.text lim raw.store = .ok text ∧ .unknownKey text ∈ faults := by
  obtain ⟨sorted, hsorted, hfaults⟩ := bind_eq_ok_iff.mp h
  have hmem := (Value.perm_of_sortKeys hsorted).mem_iff.mpr hkey
  obtain ⟨fault, hfault, hmade⟩ := exists_mem_of_forall₂ (mapM_eq_ok_iff.mp hfaults).flip hmem
  obtain ⟨text, htext, hmade⟩ := bind_eq_ok_iff.mp hmade
  obtain rfl : .unknownKey text = fault := Except.ok.inj hmade
  exact ⟨text, htext, hfault⟩

/-- **The keys of a table can be checked** unless there is something in the way of it. -/
theorem exists_checkKeys_iff (hkeys : ∀ entry ∈ raw.entries, entry.1.isKey = true) :
    (∃ faults, raw.checkKeys lim = .ok faults) ↔ ∀ limit, ¬ raw.Uncheckable limit := by
  refine exists_eq_ok_iff_forall_not ?_ fun e he => ?_
  · intro faults hfaults limit hlimit
    cases hlimit with
    | order hsort =>
      rw [checkKeys_of_order hsort] at hfaults
      cases hfaults
    | digits hsort hkey hlong =>
      obtain ⟨text, htext, -⟩ := mem_of_checkKeys hfaults hkey
      obtain ⟨⟨value, hentry⟩, -⟩ := mem_unknown_iff.mp hkey
      exact (exists_text_of_isKey (hkeys _ hentry)).mp ⟨text, htext⟩ hlong
  · obtain ⟨limit, -, hlimit⟩ := uncheckable_of_checkKeys hkeys he
    exact ⟨limit, hlimit⟩

theorem exists_check_iff (hkeys : ∀ entry ∈ raw.entries, entry.1.isKey = true) :
    (∃ faults, raw.check lim = .ok faults) ↔ ∀ limit, ¬ raw.Uncheckable limit :=
  exists_bind_pure_eq_ok_iff.trans (exists_checkKeys_iff hkeys)

theorem uncheckable_of_check (hkeys : ∀ entry ∈ raw.entries, entry.1.isKey = true)
    (h : raw.check lim = .error e) : ∃ limit, e = .overrun limit ∧ raw.Uncheckable limit := by
  rcases bind_eq_error_iff.mp h with h | ⟨_, -, ⟨⟩⟩
  exact uncheckable_of_checkKeys hkeys h

/-- Each key without a meaning is among the faults of its table. -/
theorem mem_of_check (h : raw.check lim = .ok faults) (hkey : key ∈ raw.unknown) :
    ∃ text, key.text lim raw.store = .ok text ∧ .unknownKey text ∈ faults := by
  obtain ⟨unknown, hunknown, h⟩ := bind_eq_ok_iff.mp h
  obtain rfl := Except.ok.inj h
  obtain ⟨text, htext, hmem⟩ := mem_of_checkKeys hunknown hkey
  exact ⟨text, htext, by simp [hmem]⟩

end RawSettings

/-! ### Loaders -/

namespace World

/-- Whether the loader of a world makes tables of keys that are no containers. -/
def KeyedLoads (w : World) : Prop :=
  ∀ text v store, w.load? text = some (v, store) → store.Keyed

theorem keyedLoads_usual (tree : Tree) (workplace : Path)
    (process : ProcessStart → Tree → ProcessEnd × Tree) :
    (usual tree workplace process).KeyedLoads := fun _ _ _ => Yaml.keyed_load?

end World

/-! ### Files -/

namespace Settings

variable {w : World} {p : Path} {raw : RawSettings}

/-- The keys of a table that is loaded are no containers. -/
theorem isKey_of_tableAt? (hw : w.KeyedLoads) (h : tableAt? w p = some raw) :
    ∀ entry ∈ raw.entries, entry.1.isKey = true := by
  rw [tableAt?_eq_some_iff, contentAt] at h
  cases hloaded : loadedAt? w p with
  | none =>
    rw [hloaded] at h
    cases h
  | some loaded =>
    obtain ⟨v, store⟩ := loaded
    obtain ⟨bytes, -, hloads⟩ := Option.bind_eq_some_iff.mp hloaded
    obtain ⟨text, -, hloads⟩ := Option.bind_eq_some_iff.mp hloads
    rw [hloaded, Content.ofLoaded] at h
    split at h
    · cases h
      simp
    · split at h
      next entries hentries =>
        cases h
        exact (hw _ v store hloads).isKey hentries
      · cases h

/-- What is wrong with the file at a path, if it can be told. -/
def complaintsAt (w : World) (p : Path) : Except Failure (List WideText) := do
  match ← w.tree.kindAt? p with
  | none => return [complaint p (wide "file not found")]
  | some _ =>
    match contentAt w p with
    | .unreadable => return [complaint p (wide "failed to read (...)")]
    | .other => return [complaint p (wide "config must be a mapping")]
    | .table raw => return (← raw.check w.limits).map fun f : SettingsFault => complaint p f.message

theorem runIn_checkFile (p : Path) (w : World) :
    (checkFile p : Session (List WideText)).runIn w = (complaintsAt w p, w) := by
  unfold checkFile complaintsAt
  rw [Session.runIn_bind, Session.runIn_isThere]
  cases w.tree.kindAt? p with
  | error e => rfl
  | ok found =>
    cases found with
    | none => rfl
    | some kind =>
      simp only [Except.map, Option.isSome_some, if_true]
      rw [Session.runIn_bind, runIn_contentOf]
      cases contentAt w p with
      | unreadable => rfl
      | other => rfl
      | table raw =>
        simp only
        rw [Session.runIn_bind_of_ok Session.runIn_limits]
        cases raw.check w.limits <;> rfl

/-- Why the file at a path cannot be checked: it cannot be told whether there is one, or its
table cannot be checked. -/
inductive Unchecked (w : World) (p : Path) : Failure → Prop
  | kind {e : Failure} (h : w.tree.kindAt? p = .error e) : Unchecked w p e
  | table {raw : RawSettings} {limit : Overrun} (h : tableAt? w p = some raw)
      (hlimit : raw.Uncheckable limit) : Unchecked w p limit

theorem unchecked_of_complaintsAt {e : Failure} (hw : w.KeyedLoads)
    (h : complaintsAt w p = .error e) : Unchecked w p e := by
  rcases bind_eq_error_iff.mp h with h | ⟨found, hfound, h⟩
  · exact .kind h
  · cases found with
    | none => cases h
    | some kind =>
      cases hcontent : contentAt w p with
      | unreadable => simp [hcontent, pure, Except.pure] at h
      | other => simp [hcontent, pure, Except.pure] at h
      | table raw =>
        simp only [hcontent] at h
        have htable := tableAt?_eq_some_iff.mpr hcontent
        obtain ⟨limit, rfl, hlimit⟩ := RawSettings.uncheckable_of_check
          (isKey_of_tableAt? hw htable) (by simpa [bind_eq_error_iff, pure, Except.pure] using h)
        exact .table htable hlimit

/-- What is said of a file with a table. -/
theorem exists_of_complaintsAt {complaints : List WideText}
    (h : complaintsAt w p = .ok complaints) (htable : tableAt? w p = some raw) :
    ∃ faults, raw.check w.limits = .ok faults ∧
      complaints = faults.map fun f : SettingsFault => complaint p f.message := by
  obtain ⟨found, hfound, h⟩ := bind_eq_ok_iff.mp h
  cases found with
  | none =>
    rw [tableAt?_of_missing hfound] at htable
    cases htable
  | some kind =>
    simp only [tableAt?_eq_some_iff.mp htable] at h
    obtain ⟨faults, hfaults, h⟩ := bind_eq_ok_iff.mp h
    exact ⟨faults, hfaults, (Except.ok.inj h).symm⟩

theorem exists_complaintsAt_iff (hw : w.KeyedLoads) :
    (∃ complaints, complaintsAt w p = .ok complaints) ↔ ∀ e, ¬ Unchecked w p e := by
  refine exists_eq_ok_iff_forall_not ?_ fun e he => ⟨e, unchecked_of_complaintsAt hw he⟩
  intro complaints hok e he
  cases he with
  | kind hkind =>
    obtain ⟨found, hfound, -⟩ := bind_eq_ok_iff.mp hok
    rw [hkind] at hfound
    cases hfound
  | table htable hlimit =>
    obtain ⟨faults, hfaults, -⟩ := exists_of_complaintsAt hok htable
    exact (RawSettings.exists_check_iff (isKey_of_tableAt? hw htable)).mp ⟨faults, hfaults⟩ _ hlimit

/-- **The check of settings files** changes nothing. It has an answer where each of the files can
be checked, and then a complaint for every key without a meaning in any of them. Otherwise one of
the files is the reason that it has none. -/
theorem runIn_checkFiles (paths : List Path) (w : World) (hw : w.KeyedLoads) :
    ∃ result, (checkFiles paths : Session (List WideText)).runIn w = (result, w) ∧
      ((∃ complaints, result = .ok complaints) ↔ ∀ p ∈ paths, ∀ e, ¬ Unchecked w p e) ∧
      (∀ e, result = .error e → ∃ p ∈ paths, Unchecked w p e) ∧
      ∀ complaints, result = .ok complaints → ∀ p ∈ paths, ∀ raw, tableAt? w p = some raw →
        ∀ key value, (key, value) ∈ raw.entries → RawSettings.isKnown key = false →
          ∃ text, key.text w.limits raw.store = .ok text ∧
            complaint p (wide "Unknown key: " ++ text) ∈ complaints := by
  have hrun : (checkFiles paths : Session (List WideText)).runIn w =
      ((paths.mapM (complaintsAt w)).map List.flatten, w) := by
    rw [checkFiles, Session.runIn_bind, Session.runIn_mapM fun p _ => runIn_checkFile p w]
    cases paths.mapM (complaintsAt w) <;> rfl
  refine ⟨_, hrun, ?_, ?_, ?_⟩
  · rw [exists_map_eq_ok_iff, exists_mapM_eq_ok_iff]
    exact forall₂_congr fun p _ => exists_complaintsAt_iff hw
  · intro e he
    obtain ⟨p, hp, he⟩ := exists_mem_of_mapM_eq_error (map_eq_error_iff.mp he)
    exact ⟨p, hp, unchecked_of_complaintsAt hw he⟩
  · intro complaints hok p hp raw htable key value hentry hkey
    obtain ⟨parts, hparts, rfl⟩ := map_eq_ok_iff.mp hok
    obtain ⟨part, hpart, hcomplaints⟩ := exists_mem_of_forall₂ (mapM_eq_ok_iff.mp hparts).flip hp
    obtain ⟨faults, hfaults, rfl⟩ := exists_of_complaintsAt hcomplaints htable
    obtain ⟨text, htext, hmem⟩ :=
      RawSettings.mem_of_check hfaults (RawSettings.mem_unknown_iff.mpr ⟨⟨value, hentry⟩, hkey⟩)
    exact ⟨text, htext, List.mem_flatten.mpr ⟨_, hpart, List.mem_map.mpr ⟨_, hmem, rfl⟩⟩⟩

/-- A world with two settings files: one has two keys without a meaning that are of one sort, and
the other one a number and a string. -/
def oddKeys : World :=
  .usual { entries := [
    ([wide "same.yml"], .file (Utf8.encode "fooo: b\nbar: a\n".toList)),
    ([wide "mixed.yml"], .file (Utf8.encode "1: a\nfoo: b\n".toList))] }
    (.ofString "/") fun _ t => (.timedOut, t)

theorem exists_tableAt?_oddKeys : ∃ raw, tableAt? oddKeys (.ofString "/same.yml") = some raw ∧
    raw.entries = [(.string (wide "fooo"), .string (wide "b")),
      (.string (wide "bar"), .string (wide "a"))] :=
  Option.map_eq_some_iff.mp (by decide +kernel)

theorem not_unchecked_oddKeys (e : Failure) :
    ¬ Unchecked oddKeys (.ofString "/same.yml") e := by
  obtain ⟨raw, htable, hentries⟩ := exists_tableAt?_oddKeys
  have hkind : oddKeys.tree.kindAt? (.ofString "/same.yml") = .ok (some .file) := by
    decide +kernel
  have hunknown : raw.unknown = [.string (wide "fooo"), .string (wide "bar")] := by
    rw [RawSettings.unknown, hentries]
    decide
  intro h
  cases h with
  | kind herror =>
    rw [hkind] at herror
    cases herror
  | table htable' hlimit =>
    obtain rfl := Option.some.inj (htable.symm.trans htable')
    cases hlimit with
    | order hsort => exact hsort (.inr ⟨.string, by simp [hunknown, Value.keySort?]⟩)
    | digits _ hkey hlong =>
      obtain ⟨n, rfl, -⟩ := hlong
      simp [hunknown] at hkey

theorem runIn_checkFiles_oddKeys :
    oddKeys.KeyedLoads ∧
    ∃ complaints, (checkFiles [.ofString "/same.yml"] : Session (List WideText)).runIn oddKeys =
        (.ok complaints, oddKeys) ∧
      wide "/same.yml: Unknown key: fooo" ∈ complaints ∧
      wide "/same.yml: Unknown key: bar" ∈ complaints := by
  have hkeyed : oddKeys.KeyedLoads := World.keyedLoads_usual _ _ _
  obtain ⟨raw, htable, hentries⟩ := exists_tableAt?_oddKeys
  obtain ⟨result, hrun, hanswer, -, hcomplaints⟩ :=
    runIn_checkFiles [.ofString "/same.yml"] oddKeys hkeyed
  obtain ⟨complaints, rfl⟩ := hanswer.mpr (by simpa using not_unchecked_oddKeys)
  have hmem := hcomplaints complaints rfl _ List.mem_cons_self raw htable
  obtain ⟨_, ⟨⟩, hfooo⟩ := hmem (.string (wide "fooo")) (.string (wide "b"))
    (by simp [hentries]) (by decide)
  obtain ⟨_, ⟨⟩, hbar⟩ := hmem (.string (wide "bar")) (.string (wide "a"))
    (by simp [hentries]) (by decide)
  exact ⟨hkeyed, complaints, hrun, hfooo, hbar⟩

/-- **Keys of two sorts** have no order, and the check has no answer for their file. -/
theorem checkFiles_mixedKeys :
    (∃ raw, tableAt? oddKeys (.ofString "/mixed.yml") = some raw ∧
      raw.unknown = [.int 1, .string (wide "foo")]) ∧
    ((checkFiles [.ofString "/mixed.yml"] : Session (List WideText)).runIn oddKeys).1 =
      .error Overrun.order := by
  have htable : ((tableAt? oddKeys (.ofString "/mixed.yml")).map RawSettings.unknown) =
      some [.int 1, .string (wide "foo")] := by decide +kernel
  exact ⟨Option.map_eq_some_iff.mp htable, by decide +kernel⟩

end Settings

end InlineReport
