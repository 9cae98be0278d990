import Mathlib.Data.List.Dedup
import Mathlib.Data.List.Forall2
import InlineReport.Proofs.Model.Placing
import InlineReport.Proofs.Model.Streams

/-!
# Lookups agree with the arena

A model is made from the empty one by registering files, functions, versions and copies, and by
applying the streams of a trace (`Model.Reached`), and some of this may go wrong on the way.
However it was made, **looking something up finds what a scan of the arena finds**
(`Model.lookups_agree`): the tables of files, functions and versions are never out of date.

The arena does not tell which of two functions of one name was created later, so that what has
been created is recorded along the way.
-/

namespace InlineReport

theorem mem_of_lastHome? {created : List (String × String)} {path name : String}
    (h : lastHome? created name = some path) : (path, name) ∈ created := by
  obtain ⟨⟨path', name'⟩, hfind, rfl⟩ := Option.map_eq_some_iff.mp h
  have hname : name' = name := by simpa using List.find?_some hfind
  exact hname ▸ List.mem_reverse.mp (List.mem_of_find?_eq_some hfind)

theorem lastHome?_eq_none_iff {created : List (String × String)} {name : String} :
    lastHome? created name = none ↔ ∀ path, (path, name) ∉ created := by
  simp only [lastHome?, Option.map_eq_none_iff, List.find?_eq_none, List.mem_reverse,
    decide_eq_true_eq, Prod.forall]
  constructor
  · exact fun h path hmem => h path name hmem rfl
  · rintro h path name' hmem rfl
    exact h path hmem

namespace Model

/-- **A model that can be reached** from the empty one, and the functions that have been created
for it, in order: by registering, where a function needs its file, a version its function and a
copy its owner; and by applying streams, up to where the work on them stops. -/
inductive Reached : List (String × String) → Model → Prop
  | empty : Reached [] .empty
  | registerFile {created m} (h : Reached created m) (path : String) :
    Reached created (m.registerFile path)
  | registerFunction {created m path} (h : Reached created m)
    (hfile : (m.files.get? path).isSome) (name : String) :
    Reached (create created path name) (m.registerFunction path name)
  | registerVersion {created m path name} (h : Reached created m)
    (hfunction : (m.function? path name).isSome) (id : Int) (code : Text) :
    Reached created (m.registerVersion path name id code)
  | registerCopy {created m number owner name secondId code m'} (h : Reached created m)
    (howner : m.version number = .ok owner)
    (hcopy : m.registerCopy owner name secondId code = .ok m') : Reached created m'
  | applySources {created m} (h : Reached created m) (blocks : List SourceBlock) :
    Reached ((Progress.attempted applySource m blocks).foldl introduce created)
      (m.applySources blocks).model
  | applyIrs {created m} (h : Reached created m) (blocks : List IrBlock) :
    Reached created (m.applyIrs blocks).model
  | applyRefusals {created m} (h : Reached created m) (notices : List Refusal) :
    Reached created (m.applyRefusals notices)

variable {m : Model} {created : List (String × String)} {v : Version}

/-- Whatever is done, the index stays in order. -/
theorem Reached.indexed (h : Reached created m) : Indexed created m := by
  induction h with
  | empty => exact .empty
  | registerFile _ path ih => exact ih.registerFile path
  | registerFunction _ hfile name ih => exact ih.registerFunction hfile name
  | registerVersion _ hfunction id code ih => exact ih.registerVersion hfunction id code
  | registerCopy _ howner hcopy ih =>
    exact ih.registerCopy (ih.coherent.getElem?_handle (mem_of_version howner)) hcopy
  | applySources _ blocks ih => exact ih.applySources blocks
  | applyIrs _ blocks ih => exact ih.of_sameEntries (runtimeGrown_applyIrs _ blocks).sameEntries
  | applyRefusals _ notices ih => exact ih.of_sameEntries (sameEntries_applyRefusals _ notices)

/-! ### Functions and their versions -/

namespace Indexed

theorem function?_eq (hm : Indexed created m) {f : Function} (hf : f ∈ m.functions) :
    m.function? f.file f.name = some f := by
  obtain ⟨path, name, hfound⟩ := mem_functions_iff.mp hf
  obtain ⟨rfl, rfl⟩ := hm.named hfound
  exact hfound

/-- **A function** has the versions that a scan for its file and name finds. -/
theorem versions_eq (hm : Indexed created m) {f : Function} (hf : f ∈ m.functions) :
    f.versions = m.compiledHandles fun v => v.file = f.file ∧ v.name = f.name := by
  have hhandles := hm.handles f.file f.name
  rwa [handlesOf, hm.function?_eq hf] at hhandles

theorem mem_versions_iff (hm : Indexed created m) {f : Function} (hf : f ∈ m.functions) {h : Nat} :
    h ∈ f.versions ↔ ∃ v ∈ m.compiled, v.handle = h ∧ v.file = f.file ∧ v.name = f.name := by
  rw [hm.versions_eq hf, mem_compiledHandles_iff]
  constructor
  · rintro ⟨v, hv, hcompiled, hkey⟩
    exact ⟨v, mem_compiled_iff.mpr ⟨Model.mem_versions_iff.mpr ⟨h, hv⟩, hcompiled⟩,
      hm.coherent.handle_eq hv, hkey⟩
  · rintro ⟨v, hv, rfl, hkey⟩
    obtain ⟨hmem, hcompiled⟩ := mem_compiled_iff.mp hv
    exact ⟨v, hm.coherent.getElem?_handle hmem, hcompiled, hkey⟩

/-- No two functions have the same file and name. -/
theorem pairwise_functions (hm : Indexed created m) :
    m.functions.Pairwise fun f g => ¬ (f.file = g.file ∧ f.name = g.name) := by
  have hnamed : ∀ {path file name f}, m.files.get? path = some file →
      file.functions.get? name = some f → f.file = path ∧ f.name = name := fun hfile hf =>
    hm.named (Option.bind_eq_some_iff.mpr ⟨_, hfile, hf⟩)
  rw [functions, List.pairwise_flatMap]
  constructor
  · intro file hfile
    obtain ⟨path, hpath⟩ := Registry.mem_values_iff.mp hfile
    refine file.functions.pairwise_values fun hne hf hg heq => hne ?_
    rw [← (hnamed hpath hf).2, ← (hnamed hpath hg).2, heq.2]
  · refine m.files.pairwise_values fun hne hfile hfile' f hf g hg heq => hne ?_
    obtain ⟨name, hname⟩ := Registry.mem_values_iff.mp hf
    obtain ⟨name', hname'⟩ := Registry.mem_values_iff.mp hg
    rw [← (hnamed hfile hname).1, ← (hnamed hfile' hname').1, heq.1]

/-- No version is listed twice, neither by one function nor by two. -/
theorem nodup_listed (hm : Indexed created m) : (m.functions.flatMap (·.versions)).Nodup := by
  rw [List.Nodup, List.pairwise_flatMap]
  constructor
  · intro f hf
    rw [hm.versions_eq hf]
    exact pairwise_compiledHandles.imp Nat.ne_of_lt
  · refine hm.pairwise_functions.imp_of_mem fun {f g} hf hg hne h hh h' hh' heq => hne ?_
    -- a version that both list has the file and the name of both
    obtain ⟨v, hv, rfl, hkey⟩ := (hm.mem_versions_iff hf).mp hh
    obtain ⟨w, hw, hhandle, hkey'⟩ := (hm.mem_versions_iff hg).mp hh'
    have hat := hm.coherent.getElem?_handle (mem_compiled_iff.mp hv).1
    have hat' := hm.coherent.getElem?_handle (mem_compiled_iff.mp hw).1
    rw [hhandle, ← heq, hat] at hat'
    obtain rfl := Option.some.inj hat'
    exact ⟨hkey.1.symm.trans hkey'.1, hkey.2.symm.trans hkey'.2⟩

/-- The function of a compiled version has been created. -/
theorem exists_function (hm : Indexed created m) (hv : v ∈ m.compiled) :
    ∃ f ∈ m.functions, f.file = v.file ∧ f.name = v.name := by
  obtain ⟨hmem, hcompiled⟩ := mem_compiled_iff.mp hv
  have hlisted : v.handle ∈ m.handlesOf v.file v.name := by
    rw [hm.handles]
    exact mem_compiledHandles_iff.mpr ⟨v, hm.coherent.getElem?_handle hmem, hcompiled, rfl, rfl⟩
  cases hf : m.function? v.file v.name with
  | none =>
    rw [handlesOf, hf] at hlisted
    exact absurd hlisted List.not_mem_nil
  | some f => exact ⟨f, mem_functions_iff.mpr ⟨_, _, hf⟩, hm.named hf⟩

theorem mem_listed_iff (hm : Indexed created m) (hv : v ∈ m.versions) :
    v.handle ∈ m.functions.flatMap (·.versions) ↔ v.isInline = false := by
  rw [List.mem_flatMap]
  constructor
  · rintro ⟨f, hf, hh⟩
    obtain ⟨w, hw, hhandle, -⟩ := (hm.mem_versions_iff hf).mp hh
    obtain ⟨hmem, hcompiled⟩ := mem_compiled_iff.mp hw
    have hat := hm.coherent.getElem?_handle hmem
    rw [hhandle, hm.coherent.getElem?_handle hv] at hat
    rwa [Option.some.inj hat]
  · intro hcompiled
    have hv' := mem_compiled_iff.mpr ⟨hv, hcompiled⟩
    obtain ⟨f, hf, hfile, hname⟩ := hm.exists_function hv'
    exact ⟨f, hf, (hm.mem_versions_iff hf).mpr ⟨v, hv', rfl, hfile.symm, hname.symm⟩⟩

/-- **Each compiled version is listed once**, and copies are not listed. -/
theorem count_listed (hm : Indexed created m) (hv : v ∈ m.versions) :
    (m.functions.flatMap (·.versions)).count v.handle = if v.isInline then 0 else 1 := by
  have hmem := hm.mem_listed_iff hv
  split
  · next hinline => exact List.count_eq_zero.mpr (by simp [hmem, hinline])
  · next hinline =>
    exact List.count_eq_one_of_mem hm.nodup_listed (hmem.mpr (by simpa using hinline))

/-- **The versions that functions list** are the compiled ones, in some order. -/
theorem exists_listed (hm : Indexed created m) :
    ∃ listed : List Version, listed.Perm m.compiled ∧
      listed.map (·.handle) = m.functions.flatMap (·.versions) := by
  have hperm : (m.compiled.map (·.handle)).Perm (m.functions.flatMap (·.versions)) := by
    refine (List.perm_ext_iff_of_nodup (hm.coherent.nodup_handles_filter _) hm.nodup_listed).mpr
      fun k => ?_
    constructor
    · intro hk
      obtain ⟨v, hv, rfl⟩ := List.mem_map.mp hk
      obtain ⟨hmem, hcompiled⟩ := mem_compiled_iff.mp hv
      exact (hm.mem_listed_iff hmem).mpr hcompiled
    · intro hk
      obtain ⟨f, hf, hk⟩ := List.mem_flatMap.mp hk
      obtain ⟨v, hv, hhandle, -⟩ := (hm.mem_versions_iff hf).mp hk
      exact List.mem_map.mpr ⟨v, hv, hhandle⟩
  have hhandles : List.Forall₂ (fun v h => v.handle = h) m.compiled (m.compiled.map (·.handle)) :=
    List.forall₂_map_right_iff.mpr (List.forall₂_same.mpr fun _ _ => rfl)
  obtain ⟨listed, hlisted, hforall⟩ :
      Relation.Comp List.Perm (List.Forall₂ fun v h => Version.handle v = h) m.compiled
        (m.functions.flatMap (·.versions)) := by
    rw [← List.forall₂_comp_perm_eq_perm_comp_forall₂]
    exact ⟨_, hhandles, hperm⟩
  refine ⟨listed, hlisted.symm, ?_⟩
  rw [map_eq_map_of_forall₂ hforall fun _ _ => id, List.map_id']

/-! ### Names -/

theorem functionByName?_eq (hm : Indexed created m) (name : String) :
    m.functionByName? name = (lastHome? created name).bind (m.function? · name) := by
  rw [← hm.home_eq]
  rfl

theorem mem_created_iff_exists (hm : Indexed created m) {path name : String} :
    (path, name) ∈ created ↔ ∃ f ∈ m.functions, f.file = path ∧ f.name = name := by
  rw [hm.mem_created_iff, Option.isSome_iff_exists]
  constructor
  · rintro ⟨f, hf⟩
    exact ⟨f, mem_functions_iff.mpr ⟨path, name, hf⟩, hm.named hf⟩
  · rintro ⟨f, hf, rfl, rfl⟩
    exact ⟨f, hm.function?_eq hf⟩

/-- **A name that means nothing** is the name of no function. -/
theorem functionByName?_eq_none_iff (hm : Indexed created m) {name : String} :
    m.functionByName? name = none ↔ ∀ f ∈ m.functions, f.name ≠ name := by
  have hnone : m.functionByName? name = none ↔ lastHome? created name = none := by
    rw [hm.functionByName?_eq]
    cases hhome : lastHome? created name with
    | none => simp
    | some path =>
      have hcreated := (hm.mem_created_iff path name).mp (mem_of_lastHome? hhome)
      simp [Option.isSome_iff_ne_none.mp hcreated]
  rw [hnone, lastHome?_eq_none_iff]
  simp only [hm.mem_created_iff_exists]
  constructor
  · exact fun h f hf hname => h f.file ⟨f, hf, rfl, hname⟩
  · rintro h path ⟨f, hf, -, hname⟩
    exact h f hf hname

theorem mem_keys_homes_iff (hm : Indexed created m) {name : String} :
    name ∈ m.homes.keys ↔ ∃ f ∈ m.functions, f.name = name := by
  rw [← Registry.get?_isSome_iff, hm.home_eq, Option.isSome_iff_ne_none, ne_eq,
    lastHome?_eq_none_iff]
  simp only [hm.mem_created_iff_exists]
  constructor
  · intro h
    obtain ⟨path, hpath⟩ := not_forall_not.mp h
    obtain ⟨f, hf, -, hname⟩ := hpath
    exact ⟨f, hf, hname⟩
  · rintro ⟨f, hf, hname⟩ h
    exact h f.file ⟨f, hf, rfl, hname⟩

/-- **The table by name** has one entry for each name that a function has. -/
theorem size_homes (hm : Indexed created m) :
    m.homes.size = (m.functions.map (·.name)).dedup.length := by
  have hperm : m.homes.keys.Perm (m.functions.map (·.name)).dedup := by
    refine (List.perm_ext_iff_of_nodup m.homes.keys_nodup (List.nodup_dedup _)).mpr fun name => ?_
    rw [hm.mem_keys_homes_iff, List.mem_dedup, List.mem_map]
  rw [← hperm.length_eq, Registry.keys, List.length_map, Registry.size]

end Indexed

/-! ### All lookups -/

/-- **Lookups agree with the arena**: whatever is found through the tables of a model is what a
look at all its versions finds, given the functions that have been created for it, in order. -/
structure LookupsAgree (created : List (String × String)) (m : Model) : Prop where
  handle_eq : ∀ {h : Nat} {v}, m.versions[h]? = some v → v.handle = h
  /-- A function lists the compiled versions of its file and name by increasing handles. -/
  increasing : ∀ {f}, f ∈ m.functions → f.versions.Pairwise (· < ·)
  mem_versions_iff : ∀ {f}, f ∈ m.functions → ∀ h, h ∈ f.versions ↔
    ∃ v ∈ m.compiled, v.handle = h ∧ v.file = f.file ∧ v.name = f.name
  /-- Together, functions list each compiled version once and no copy. -/
  count_listed : ∀ {v}, v ∈ m.versions →
    (m.functions.flatMap (·.versions)).count v.handle = if v.isInline then 0 else 1
  /-- A compile id means the version that was compiled last. -/
  functionVersion_iff : ∀ path name (id : Int) v, m.functionVersion path name id = .ok v ↔
    m.IsLatest (fun v => v.file = path ∧ v.name = name ∧ v.compileId = some id) v
  functionVersion_error_iff : ∀ path name (id : Int),
    (∃ e, m.functionVersion path name id = .error e) ↔
      ¬ ∃ v ∈ m.compiled, v.file = path ∧ v.name = name ∧ v.compileId = some id
  fileVersion_iff : ∀ path (id : Int) v, m.fileVersion path id = .ok v ↔
    m.IsLatest (fun v => v.file = path ∧ v.compileId = some id) v
  fileVersion_error_iff : ∀ path (id : Int), (∃ e, m.fileVersion path id = .error e) ↔
    ¬ ∃ v ∈ m.compiled, v.file = path ∧ v.compileId = some id
  /-- A second id means the copy of that number. -/
  copyOf_iff : ∀ {owner}, owner ∈ m.versions → ∀ {id : Int}, id ≠ 0 → ∀ v,
    m.copyOf owner id = .ok v ↔
      v ∈ m.versions ∧ v.owner = some (owner.handle : Int) ∧ v.secondId = id
  copyOf_error_iff : ∀ {owner}, owner ∈ m.versions → ∀ {id : Int}, id ≠ 0 →
    ((∃ e, m.copyOf owner id = .error e) ↔
      ¬ ∃ v ∈ m.versions, v.owner = some (owner.handle : Int) ∧ v.secondId = id)
  /-- A name means the function of that name that was created last. -/
  mem_created_iff : ∀ path name,
    (path, name) ∈ created ↔ ∃ f ∈ m.functions, f.file = path ∧ f.name = name
  functionByName_eq : ∀ name,
    m.functionByName? name = (lastHome? created name).bind (m.function? · name)
  functionByName_none_iff : ∀ name,
    m.functionByName? name = none ↔ ∀ f ∈ m.functions, f.name ≠ name

/-- **Lookups agree with the arena** in every model that can be reached. -/
theorem lookups_agree (h : Reached created m) : LookupsAgree created m := by
  have hm := h.indexed
  -- what is found is said by the index; where nothing is found there is nothing to be found
  refine
    { handle_eq := hm.coherent.handle_eq
      increasing := fun hf => hm.versions_eq hf ▸ pairwise_compiledHandles
      mem_versions_iff := fun hf _ => hm.mem_versions_iff hf
      count_listed := hm.count_listed
      functionVersion_iff := fun _ _ _ _ => hm.functionVersion_eq_ok_iff
      functionVersion_error_iff := fun path name id => ?_
      fileVersion_iff := fun _ _ _ => hm.fileVersion_eq_ok_iff
      fileVersion_error_iff := fun path id => ?_
      copyOf_iff := fun howner _ hid _ => hm.coherent.copyOf_eq_ok_iff howner hid
      copyOf_error_iff := fun howner id hid => ?_
      mem_created_iff := fun _ _ => hm.mem_created_iff_exists
      functionByName_eq := hm.functionByName?_eq
      functionByName_none_iff := fun _ => hm.functionByName?_eq_none_iff }
  · rw [exists_error_iff, ← exists_isLatest_iff hm.coherent]
    simp only [hm.functionVersion_eq_ok_iff]
  · rw [exists_error_iff, ← exists_isLatest_iff hm.coherent]
    simp only [hm.fileVersion_eq_ok_iff]
  · rw [exists_error_iff]
    simp only [hm.coherent.copyOf_eq_ok_iff howner hid]

/-- A model with a version of `f` that has been registered by hand. -/
def registeredModel : Model :=
  ((Model.empty.registerFile "b.js").registerFunction "b.js" "f").registerVersion "b.js" "f" 7 []

/-- The model with `f` of another file from source blocks, of which the last one goes wrong. -/
def mixedModel : Model := (registeredModel.applySources (nestedCopies ++ [selfPlaced])).model

theorem lookups_agree_mixedModel :
    Reached [("b.js", "f"), ("a.js", "f")] mixedModel ∧
      mixedModel.compiled.map (·.file) = ["b.js", "a.js"] ∧
      LookupsAgree [("b.js", "f"), ("a.js", "f")] mixedModel := by
  have hfile : Reached [] (Model.empty.registerFile "b.js") := .registerFile .empty "b.js"
  have hfunction : Reached [("b.js", "f")]
      ((Model.empty.registerFile "b.js").registerFunction "b.js" "f") :=
    hfile.registerFunction (by rfl) "f"
  have hregistered : Reached [("b.js", "f")] registeredModel :=
    hfunction.registerVersion (by rfl) 7 []
  have hcreated : (Progress.attempted applySource registeredModel
      (nestedCopies ++ [selfPlaced])).foldl introduce [("b.js", "f")] =
        [("b.js", "f"), ("a.js", "f")] := by rfl
  have h : Reached [("b.js", "f"), ("a.js", "f")] mixedModel :=
    hcreated ▸ hregistered.applySources (nestedCopies ++ [selfPlaced])
  exact ⟨h, by rfl, lookups_agree h⟩

end Model

end InlineReport
