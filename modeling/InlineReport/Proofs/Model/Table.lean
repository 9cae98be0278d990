import InlineReport.Model.Build

/-!
# The functions of a model, by file and name

A function is found by the path of its file and its name (`Model.function?`). What a step
of the work on a trace does to the functions is said in these terms: a registration adds
one function or leaves all of them alone, a compiled version is added to one function, and
what happens to copies does not touch the functions at all.

What the tables say is read off them in three ways: which version a compile id means in a file
(`Model.handleInFile?`) and in a function (`Model.handleInFunction?`), and which versions a
function has (`Model.handlesOf`). To have a file or a function without versions or not to
have it at all is the same for these, so that only a compiled version changes them.
-/

namespace InlineReport

/-! ### Entries, keys and values -/

namespace Registry

variable {κ α : Type} [DecidableEq κ]

theorem mem_iff_find? {l : List (κ × α)} (h : (l.map (·.1)).Nodup) {k : κ} {a : α} :
    (k, a) ∈ l ↔ find? k l = some a := by
  induction l with
  | nil => simp [find?]
  | cons e l ih =>
    obtain ⟨k', a'⟩ := e
    rw [List.map_cons, List.nodup_cons] at h
    by_cases hk : k' = k
    · subst hk
      have hnot : (k', a) ∉ l := fun hmem => h.1 (List.mem_map.mpr ⟨_, hmem, rfl⟩)
      simp [find?, hnot, eq_comm]
    · rw [find?, if_neg hk, ← ih h.2, List.mem_cons]
      refine or_iff_right fun heq => ?_
      exact hk (congrArg Prod.fst heq).symm

/-- **The entries** are what looking up gives. -/
theorem mem_entries_iff {r : Registry κ α} {k : κ} {a : α} :
    (k, a) ∈ r.entries ↔ r.get? k = some a :=
  mem_iff_find? r.nodup_keys

theorem mem_values_iff {r : Registry κ α} {a : α} : a ∈ r.values ↔ ∃ k, r.get? k = some a := by
  rw [values, List.mem_map]
  constructor
  · rintro ⟨⟨k, a'⟩, hmem, rfl⟩
    exact ⟨k, mem_entries_iff.mp hmem⟩
  · rintro ⟨k, h⟩
    exact ⟨(k, a), mem_entries_iff.mpr h, rfl⟩

/-- What holds of the values of any two keys holds along the values. -/
theorem pairwise_values {R : α → α → Prop} (r : Registry κ α)
    (h : ∀ {k k' a a'}, k ≠ k' → r.get? k = some a → r.get? k' = some a' → R a a') :
    r.values.Pairwise R := by
  have hkeys : r.entries.Pairwise fun e e' => e.1 ≠ e'.1 := List.pairwise_map.mp r.nodup_keys
  rw [values, List.pairwise_map]
  exact hkeys.imp_of_mem fun he he' hne => h hne (mem_entries_iff.mp he) (mem_entries_iff.mp he')

theorem get?_insertNew (r : Registry κ α) (k k' : κ) (a : α) :
    (r.insertNew k a).get? k' = if k = k' then some ((r.get? k).getD a) else r.get? k' := by
  unfold insertNew contains
  cases h : r.get? k with
  | none => simp
  | some b =>
    by_cases hk : k = k'
    · subst hk
      simp [h]
    · simp [hk]

end Registry

namespace Model

variable {m : Model} {path path' name name' : String}

/-! ### Looking functions up -/

/-- The function of a name in the file of a path. -/
def function? (m : Model) (path name : String) : Option Function :=
  (m.files.get? path).bind fun file => file.functions.get? name

theorem function?_eq_some_iff {f : Function} :
    m.function? path name = some f ↔ m.function path name = .ok f := by
  unfold function? function file
  cases m.files.get? path with
  | none => simp [bind, Except.bind]
  | some file =>
    simp only [Option.bind_some, bind, Except.bind]
    cases file.functions.get? name <;> simp

/-- **The functions of all files** are those that are found. -/
theorem mem_functions_iff {f : Function} :
    f ∈ m.functions ↔ ∃ path name, m.function? path name = some f := by
  rw [functions, List.mem_flatMap]
  constructor
  · rintro ⟨file, hfile, hf⟩
    obtain ⟨path, hpath⟩ := Registry.mem_values_iff.mp hfile
    obtain ⟨name, hname⟩ := Registry.mem_values_iff.mp hf
    exact ⟨path, name, Option.bind_eq_some_iff.mpr ⟨file, hpath, hname⟩⟩
  · rintro ⟨path, name, h⟩
    obtain ⟨file, hpath, hname⟩ := Option.bind_eq_some_iff.mp h
    exact ⟨file, Registry.mem_values_iff.mpr ⟨path, hpath⟩,
      Registry.mem_values_iff.mpr ⟨name, hname⟩⟩

/-! ### Changing functions -/

theorem function?_modifyFunction (m : Model) (path name path' name' : String)
    (g : Function → Function) :
    (m.modifyFunction path name g).function? path' name' =
      if path' = path ∧ name' = name then (m.function? path' name').map g
      else m.function? path' name' := by
  unfold function? modifyFunction
  rw [Registry.get?_modify]
  by_cases hpath : path' = path
  · rw [if_pos hpath]
    cases m.files.get? path' with
    | none => simp
    | some file => simp [hpath]
  · rw [if_neg hpath, if_neg (fun h => hpath h.1)]

theorem function?_modifyVersion (m : Model) (handle : Nat) (g : Version → Version) :
    (m.modifyVersion handle g).function? path name = m.function? path name := rfl

theorem function?_addVersion (m : Model) (content : Nat → Version) :
    (m.addVersion content).function? path name = m.function? path name := rfl

/-- A change to files that leaves their functions alone. -/
theorem function?_modify_files (m : Model) (g : SourceFile → SourceFile)
    (hg : ∀ file, (g file).functions = file.functions) :
    Model.function? { m with files := m.files.modify path' g } path name =
      m.function? path name := by
  unfold function?
  simp only [Registry.get?_modify]
  split
  · cases m.files.get? path with
    | none => rfl
    | some file => simp [hg]
  · rfl

/-! ### Registering -/

/-- A new file has no functions. -/
theorem function?_registerFile (m : Model) (path' : String) :
    (m.registerFile path').function? path name = m.function? path name := by
  unfold function? registerFile
  simp only [Registry.get?_insertNew]
  split
  · next h =>
    subst h
    cases m.files.get? path' with
    | none => rfl
    | some file => rfl
  · rfl

theorem isSome_get?_registerFile (m : Model) (path : String) :
    ((m.registerFile path).files.get? path).isSome := by
  simp [registerFile, Registry.get?_insertNew]

/-- A file is there once it has been registered. -/
theorem isSome_get?_registerFile_iff {m : Model} {path path' : String} :
    ((m.registerFile path).files.get? path').isSome ↔
      path' = path ∨ (m.files.get? path').isSome := by
  rw [registerFile, Registry.get?_insertNew]
  split
  · next h => simp [h]
  · next h => simp [Ne.symm h]

/-- Registering functions and versions registers no files. -/
theorem isSome_get?_registerFunction (m : Model) (path name path' : String) :
    ((m.registerFunction path name).files.get? path').isSome = (m.files.get? path').isSome := by
  unfold registerFunction
  split
  · rfl
  split
  · rfl
  · next file hfile _ =>
    rw [Registry.get?_insert]
    split
    · next h => rw [← h, hfile, Option.isSome_some, Option.isSome_some]
    · rfl

theorem isSome_get?_registerVersion (m : Model) (path name : String) (id : Int) (code : Text)
    (path' : String) : ((m.registerVersion path name id code).files.get? path').isSome =
      (m.files.get? path').isSome := by
  unfold registerVersion modifyFunction addVersion
  simp only [Registry.get?_modify]
  split
  · rw [Option.isSome_map, Option.isSome_map]
  · rfl

theorem registerFunction_of_known {f : Function} (h : m.function? path name = some f) :
    m.registerFunction path name = m := by
  obtain ⟨file, hfile, hf⟩ := Option.bind_eq_some_iff.mp h
  simp [registerFunction, Registry.contains, hfile, hf]

theorem registerFunction_of_new {file : SourceFile} (hfile : m.files.get? path = some file)
    (h : m.function? path name = none) :
    m.registerFunction path name =
      { m with
        files := m.files.insert path
          { file with functions := file.functions.insert name { name, file := path } }
        homes := m.homes.insert name path } := by
  rw [function?, hfile, Option.bind_some] at h
  simp [registerFunction, Registry.contains, hfile, h]

/-- **A function is registered** under its file and name, unless it is there already. -/
theorem function?_registerFunction (h : (m.files.get? path).isSome) :
    (m.registerFunction path name).function? path' name' =
      if path' = path ∧ name' = name then
        some ((m.function? path name).getD { name, file := path })
      else m.function? path' name' := by
  obtain ⟨file, hfile⟩ := Option.isSome_iff_exists.mp h
  cases hf : m.function? path name with
  | some f =>
    rw [registerFunction_of_known hf]
    split
    · next heq => rw [heq.1, heq.2, hf, Option.getD_some]
    · rfl
  | none =>
    rw [registerFunction_of_new hfile hf, Option.getD_none]
    -- another file is not touched, and another name of this file keeps its function
    by_cases hpath : path' = path
    · subst hpath
      simp only [function?, Registry.get?_insert, if_pos, Option.bind_some, hfile, true_and]
      by_cases hname : name = name'
      · simp [hname]
      · simp [hname, Ne.symm hname]
    · simp [function?, hpath, Ne.symm hpath]

/-- A call by name means the function of that name that was registered last. -/
theorem homes_registerFunction (h : (m.files.get? path).isSome) :
    (m.registerFunction path name).homes =
      if (m.function? path name).isSome then m.homes else m.homes.insert name path := by
  obtain ⟨file, hfile⟩ := Option.isSome_iff_exists.mp h
  cases hf : m.function? path name with
  | some f => rw [registerFunction_of_known hf, Option.isSome_some, if_pos rfl]
  | none => simp [registerFunction_of_new hfile hf]

theorem nextHandle_registerFunction (m : Model) (path name : String) :
    (m.registerFunction path name).nextHandle = m.nextHandle := by
  unfold registerFunction
  split
  · rfl
  split
  · rfl
  · rfl

/-- A compiled version is added to its function and to no other one. -/
theorem function?_registerVersion (m : Model) (path name : String) (id : Int) (code : Text) :
    (m.registerVersion path name id code).function? path' name' =
      if path' = path ∧ name' = name then
        (m.function? path' name').map fun f =>
          { f with
            versions := f.versions ++ [m.nextHandle]
            versionsById := f.versionsById.insert id m.nextHandle }
      else m.function? path' name' := by
  refine (function?_modify_files _ (fun file : SourceFile =>
    { file with versionsById := file.versionsById.insert id m.nextHandle }) fun _ => rfl).trans ?_
  rw [function?_modifyFunction, function?_addVersion]

theorem isSome_get?_of_function? (h : (m.function? path name).isSome) :
    (m.files.get? path).isSome := by
  obtain ⟨f, hf⟩ := Option.isSome_iff_exists.mp h
  obtain ⟨file, hfile, -⟩ := Option.bind_eq_some_iff.mp hf
  exact Option.isSome_iff_exists.mpr ⟨file, hfile⟩

/-! ### What the tables say -/

/-- The handle that a compile id means in the file of a path. -/
def handleInFile? (m : Model) (path : String) (id : Int) : Option Nat :=
  (m.files.get? path).bind fun file => file.versionsById.get? id

/-- The handle that a compile id means in a function. -/
def handleInFunction? (m : Model) (path name : String) (id : Int) : Option Nat :=
  (m.function? path name).bind fun f => f.versionsById.get? id

/-- The handles that a function has. -/
def handlesOf (m : Model) (path name : String) : List Nat :=
  ((m.function? path name).map (·.versions)).getD []

variable {id id' : Int}

theorem handleInFile?_registerFile (m : Model) (path' : String) :
    (m.registerFile path').handleInFile? path id = m.handleInFile? path id := by
  unfold handleInFile? registerFile
  simp only [Registry.get?_insertNew]
  split
  · next h =>
    subst h
    cases m.files.get? path' with
    | none => simp
    | some file => rfl
  · rfl

theorem handleInFile?_registerFunction (m : Model) (path' name : String) :
    (m.registerFunction path' name).handleInFile? path id = m.handleInFile? path id := by
  unfold registerFunction
  split
  · rfl
  split
  · rfl
  · next file hfile _ =>
    unfold handleInFile?
    simp only [Registry.get?_insert]
    split
    · next h =>
      subst h
      rw [hfile]
      rfl
    · rfl

theorem handleInFile?_modifyFunction (m : Model) (path' name : String) (g : Function → Function) :
    (m.modifyFunction path' name g).handleInFile? path id = m.handleInFile? path id := by
  unfold handleInFile? modifyFunction
  simp only [Registry.get?_modify]
  split
  · cases m.files.get? path with
    | none => rfl
    | some file => rfl
  · rfl

/-- A compile id means the version that was compiled last. -/
theorem handleInFile?_registerVersion (h : (m.files.get? path').isSome) (code : Text) :
    (m.registerVersion path' name id' code).handleInFile? path id =
      if path = path' ∧ id = id' then some m.nextHandle else m.handleInFile? path id := by
  obtain ⟨file, hfile⟩ := Option.isSome_iff_exists.mp h
  unfold handleInFile? registerVersion modifyFunction addVersion
  simp only [Registry.get?_modify]
  by_cases hpath : path = path'
  · subst hpath
    simp [hfile, eq_comm]
  · simp [hpath]

theorem handleInFunction?_registerFile (m : Model) (path' : String) :
    (m.registerFile path').handleInFunction? path name id = m.handleInFunction? path name id := by
  rw [handleInFunction?, function?_registerFile, handleInFunction?]

theorem handlesOf_registerFile (m : Model) (path' : String) :
    (m.registerFile path').handlesOf path name = m.handlesOf path name := by
  rw [handlesOf, function?_registerFile, handlesOf]

theorem handleInFunction?_registerFunction (h : (m.files.get? path').isSome) :
    (m.registerFunction path' name').handleInFunction? path name id =
      m.handleInFunction? path name id := by
  rw [handleInFunction?, function?_registerFunction h, handleInFunction?]
  split
  · next heq =>
    rw [heq.1, heq.2]
    cases m.function? path' name' with
    | none => simp
    | some f => rfl
  · rfl

theorem handlesOf_registerFunction (h : (m.files.get? path').isSome) :
    (m.registerFunction path' name').handlesOf path name = m.handlesOf path name := by
  rw [handlesOf, function?_registerFunction h, handlesOf]
  split
  · next heq =>
    rw [heq.1, heq.2]
    cases m.function? path' name' with
    | none => rfl
    | some f => rfl
  · rfl

theorem handleInFunction?_registerVersion (h : (m.function? path' name').isSome) (code : Text) :
    (m.registerVersion path' name' id' code).handleInFunction? path name id =
      if path = path' ∧ name = name' ∧ id = id' then some m.nextHandle
      else m.handleInFunction? path name id := by
  obtain ⟨f, hf⟩ := Option.isSome_iff_exists.mp h
  rw [handleInFunction?, function?_registerVersion, handleInFunction?]
  by_cases heq : path = path' ∧ name = name'
  · obtain ⟨rfl, rfl⟩ := heq
    simp [hf, eq_comm]
  · rw [if_neg heq, if_neg fun hall => heq ⟨hall.1, hall.2.1⟩]

theorem handlesOf_registerVersion (h : (m.function? path' name').isSome) (code : Text) :
    (m.registerVersion path' name' id' code).handlesOf path name =
      m.handlesOf path name ++
        if path = path' ∧ name = name' then [m.nextHandle] else [] := by
  obtain ⟨f, hf⟩ := Option.isSome_iff_exists.mp h
  rw [handlesOf, function?_registerVersion, handlesOf]
  by_cases heq : path = path' ∧ name = name'
  · obtain ⟨rfl, rfl⟩ := heq
    simp [hf]
  · rw [if_neg heq, if_neg heq, List.append_nil]

end Model

end InlineReport
