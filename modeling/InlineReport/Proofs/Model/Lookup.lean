import InlineReport.Proofs.Model.Index

/-!
# Looking versions up

In an indexed model a lookup through the tables finds what a look through the arena would find:
for a compile id the last compiled version that has it (`Model.Indexed.fileVersion_eq_ok_iff`,
`Model.Indexed.functionVersion_eq_ok_iff`), for a second id the copy of that number
(`Model.Coherent.copyOf_eq_ok_iff`). It finds nothing only where there is nothing to be found
(`Model.exists_isLatest_iff`).
-/

namespace InlineReport

namespace Model

variable {m : Model} {v owner : Version} {created : List (String × String)}

/-! ### Through the tables -/

theorem versionIn_eq_ok_iff {table : Registry Int Nat} {id : Int} {failure : LookupFailure} :
    m.versionIn table id failure = .ok v ↔
      ∃ h, table.get? id = some h ∧ m.versions[h]? = some v := by
  unfold versionIn
  cases table.get? id with
  | none => simp
  | some h => cases hv : m.versions[h]? <;> simp [hv]

theorem versionIn_eq_error {table : Registry Int Nat} {id : Int} {failure : LookupFailure}
    (h : table.get? id = none) : m.versionIn table id failure = .error failure := by
  rw [versionIn, h, Option.bind_none]

theorem fileVersion_eq_ok_iff {path : String} {id : Int} :
    m.fileVersion path id = .ok v ↔
      ∃ h, m.handleInFile? path id = some h ∧ m.versions[h]? = some v := by
  unfold fileVersion file handleInFile?
  cases m.files.get? path with
  | none => simp [bind, Except.bind]
  | some file => exact versionIn_eq_ok_iff

/-- A lookup in a file that finds nothing says what is missing: the file, or the version. -/
theorem fileVersion_eq_error {path : String} {id : Int}
    (h : ∀ v, m.fileVersion path id ≠ .ok v) : m.fileVersion path id = .error
      (if (m.files.get? path).isSome then ⟨"version", s!"{path}#{id}"⟩ else ⟨"file", path⟩) := by
  cases hv : m.fileVersion path id with
  | ok v => exact absurd hv (h v)
  | error e =>
    unfold fileVersion file versionIn at hv
    cases hfile : m.files.get? path with
    | none => exact hv.symm.trans (by rw [hfile]; rfl)
    | some file =>
      simp only [hfile, bind, Except.bind] at hv
      split at hv
      · exact absurd hv (by simp)
      · exact hv.symm

theorem functionVersion_eq_ok_iff {path name : String} {id : Int} :
    m.functionVersion path name id = .ok v ↔
      ∃ h, m.handleInFunction? path name id = some h ∧ m.versions[h]? = some v := by
  unfold functionVersion handleInFunction?
  cases hf : m.function path name with
  | error e =>
    have hnone : m.function? path name = none := by
      cases hf' : m.function? path name with
      | none => rfl
      | some f => exact absurd (hf.symm.trans (function?_eq_some_iff.mp hf')) (by simp)
    simp [hnone, bind, Except.bind]
  | ok f =>
    rw [function?_eq_some_iff.mpr hf]
    exact versionIn_eq_ok_iff

/-- A compile id means a version with the same entry. -/
theorem SameEntries.exists_functionVersion {m' : Model} (h : SameEntries m m')
    {path name : String} {id : Int} (hv : m.functionVersion path name id = .ok v) :
    ∃ v', m'.functionVersion path name id = .ok v' ∧ v'.entry = v.entry := by
  obtain ⟨k, hk, hv⟩ := functionVersion_eq_ok_iff.mp hv
  obtain ⟨v', hv', heq⟩ := exists_of_entries h.versions hv
  exact ⟨v', functionVersion_eq_ok_iff.mpr
    ⟨k, (h.handleInFunction?_eq path name id).trans hk, hv'⟩, heq⟩

/-- The version that a compile id means is at its handle. -/
theorem Coherent.getElem?_of_fileVersion (hm : Coherent m) {path : String} {id : Int}
    (hv : m.fileVersion path id = .ok v) : m.versions[v.handle]? = some v := by
  obtain ⟨h, -, hv⟩ := fileVersion_eq_ok_iff.mp hv
  rwa [hm.handle_eq hv]

/-! ### Through the arena -/

/-- **The last compiled version** with a property. -/
structure IsLatest (m : Model) (p : Version → Prop) (v : Version) : Prop where
  mem : v ∈ m.compiled
  holds : p v
  handle_le : ∀ w ∈ m.compiled, p w → w.handle ≤ v.handle

section Latest

variable {p : Version → Prop} [DecidablePred p]

/-- The last handle of a scan is that of the last version. -/
theorem Coherent.getLast?_compiledHandles_iff (hm : Coherent m) :
    (∃ h, (m.compiledHandles p).getLast? = some h ∧ m.versions[h]? = some v) ↔
      m.IsLatest p v := by
  simp only [getLast?_compiledHandles_eq_some_iff, mem_compiledHandles_iff]
  constructor
  · rintro ⟨h, ⟨⟨v', hv', hcompiled, hp⟩, hlast⟩, hv⟩
    obtain rfl := Option.some.inj (hv.symm.trans hv')
    refine ⟨mem_compiled_iff.mpr ⟨mem_versions_iff.mpr ⟨h, hv⟩, hcompiled⟩, hp, fun w hw hpw => ?_⟩
    obtain ⟨hmem, hcompiled'⟩ := mem_compiled_iff.mp hw
    rw [hm.handle_eq hv]
    exact hlast _ ⟨w, hm.getElem?_handle hmem, hcompiled', hpw⟩
  · rintro ⟨hmem, hp, hlast⟩
    obtain ⟨hmem, hcompiled⟩ := mem_compiled_iff.mp hmem
    have hv := hm.getElem?_handle hmem
    refine ⟨v.handle, ⟨⟨v, hv, hcompiled, hp⟩, ?_⟩, hv⟩
    rintro k ⟨w, hw, hcompiled', hpw⟩
    rw [← hm.handle_eq hw]
    exact hlast w (mem_compiled_iff.mpr ⟨mem_versions_iff.mpr ⟨k, hw⟩, hcompiled'⟩) hpw

/-- **There is a last version** with a property if there is one at all. -/
theorem exists_isLatest_iff (hm : Coherent m) :
    (∃ v, m.IsLatest p v) ↔ ∃ v ∈ m.compiled, p v := by
  constructor
  · rintro ⟨v, hv⟩
    exact ⟨v, hv.mem, hv.holds⟩
  · rintro ⟨w, hmem, hp⟩
    obtain ⟨hmem, hcompiled⟩ := mem_compiled_iff.mp hmem
    have hscan : w.handle ∈ m.compiledHandles p :=
      mem_compiledHandles_iff.mpr ⟨w, hm.getElem?_handle hmem, hcompiled, hp⟩
    cases hlast : (m.compiledHandles p).getLast? with
    | none => simp [List.getLast?_eq_none_iff.mp hlast] at hscan
    | some h =>
      obtain ⟨v, hv, -⟩ := mem_compiledHandles_iff.mp (List.mem_of_getLast? hlast)
      exact ⟨v, hm.getLast?_compiledHandles_iff.mp ⟨h, hlast, hv⟩⟩

end Latest

theorem Indexed.lt_of_handleInFile? (hm : Indexed created m) {path : String} {id : Int} {h : Nat}
    (hh : m.handleInFile? path id = some h) : h < m.nextHandle := by
  rw [hm.inFile] at hh
  obtain ⟨v, hv, -⟩ := mem_compiledHandles_iff.mp (List.mem_of_getLast? hh)
  exact lt_nextHandle hv

/-- **A compile id in a file** means the last version of the file that has it. -/
theorem Indexed.fileVersion_eq_ok_iff (hm : Indexed created m) {path : String} {id : Int} :
    m.fileVersion path id = .ok v ↔
      m.IsLatest (fun v => v.file = path ∧ v.compileId = some id) v := by
  rw [Model.fileVersion_eq_ok_iff, hm.inFile, hm.coherent.getLast?_compiledHandles_iff]

/-- **A compile id in a function** means the last version of the function that has it. -/
theorem Indexed.functionVersion_eq_ok_iff (hm : Indexed created m) {path name : String}
    {id : Int} : m.functionVersion path name id = .ok v ↔
      m.IsLatest (fun v => v.file = path ∧ v.name = name ∧ v.compileId = some id) v := by
  rw [Model.functionVersion_eq_ok_iff, hm.inFunction, hm.coherent.getLast?_compiledHandles_iff]

/-- **A second id** means the copy of that number. -/
theorem Coherent.copyOf_eq_ok_iff (hm : Coherent m) (howner : owner ∈ m.versions) {id : Int}
    (hid : id ≠ 0) : m.copyOf owner id = .ok v ↔
      v ∈ m.versions ∧ v.owner = some (owner.handle : Int) ∧ v.secondId = id := by
  rw [copyOf, if_neg hid, versionIn_eq_ok_iff]
  simp only [hm.copies_iff (hm.getElem?_handle howner)]
  constructor
  · rintro ⟨h, ⟨c, hc, hcopy⟩, hv⟩
    obtain rfl := Option.some.inj (hc.symm.trans hv)
    exact ⟨mem_versions_iff.mpr ⟨h, hv⟩, hcopy⟩
  · rintro ⟨hmem, hcopy⟩
    exact ⟨v.handle, ⟨v, hm.getElem?_handle hmem, hcopy⟩, hm.getElem?_handle hmem⟩

end Model

end InlineReport
