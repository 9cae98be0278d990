import InlineReport.Proofs.Model.Arena
import InlineReport.Proofs.Model.Deopted

/-!
# The index of a model

Which versions there are is said twice in a model: by the arena, and by the tables of files
and functions, through which everything is looked up. **An indexed model** (`Model.Indexed`)
says the same both times: the tables hold what a scan of the arena finds
(`Model.compiledHandles`). Every registration keeps a model indexed, and so does whatever
leaves all entries as they are (`Model.SameEntries`).

In which order functions have been created cannot be read off the model once it is there, so a
record of it goes along; a name means the last function in the record that has it.
-/

namespace InlineReport

/-- **The entry of a function**: what a function is, apart from what is noted with it. -/
def Function.entry (f : Function) : Function := { f with deopted := false, refusal := "" }

/-- What the entry of a function tells about it. -/
theorem Function.fields_of_entry {f f' : Function} (h : f.entry = f'.entry) :
    f.name = f'.name ∧ f.file = f'.file ∧ f.versions = f'.versions ∧
      f.versionsById = f'.versionsById := by
  simp only [entry, mk.injEq] at h
  simp only [h, and_self]

/-- The functions that have been created when the function of a name is asked for in a file:
it is created unless it is there. -/
def create (created : List (String × String)) (path name : String) : List (String × String) :=
  if created.contains (path, name) then created else created ++ [(path, name)]

theorem mem_create_iff {created : List (String × String)} {path name path' name' : String} :
    (path', name') ∈ create created path name ↔
      (path' = path ∧ name' = name) ∨ (path', name') ∈ created := by
  unfold create
  split
  · next h =>
    refine ⟨Or.inr, fun hmem => hmem.elim ?_ id⟩
    rintro ⟨rfl, rfl⟩
    exact List.contains_iff_mem.mp h
  · rw [List.mem_append, List.mem_singleton, Prod.mk.injEq, or_comm]

theorem introduce_of_inline {created : List (String × String)} {b : SourceBlock}
    (hb : b.isInline = true) : introduce created b = created :=
  if_pos (Or.inl hb)

theorem introduce_of_compiled {created : List (String × String)} {b : SourceBlock}
    (hb : b.isInline = false) : introduce created b = create created b.file b.name := by
  simp [introduce, create, hb]

namespace Model

variable {m m' m'' : Model} {created : List (String × String)} {path name : String}

/-! ### Same entries -/

/-- **The same entries**: two models that differ only in what blocks write into versions and
in what is noted with functions. -/
structure SameEntries (m m' : Model) : Prop where
  versions : m'.versions.map Version.entry = m.versions.map Version.entry
  function : ∀ path name, (m'.function? path name).map Function.entry =
    (m.function? path name).map Function.entry
  inFile : ∀ path id, m'.handleInFile? path id = m.handleInFile? path id
  homes : m'.homes = m.homes

namespace SameEntries

theorem refl (m : Model) : SameEntries m m := ⟨rfl, fun _ _ => rfl, fun _ _ => rfl, rfl⟩

theorem symm (h : SameEntries m m') : SameEntries m' m where
  versions := h.versions.symm
  function path name := (h.function path name).symm
  inFile path id := (h.inFile path id).symm
  homes := h.homes.symm

theorem trans (h : SameEntries m m') (h' : SameEntries m' m'') : SameEntries m m'' where
  versions := h'.versions.trans h.versions
  function path name := (h'.function path name).trans (h.function path name)
  inFile path id := (h'.inFile path id).trans (h.inFile path id)
  homes := h'.homes.trans h.homes

/-- Writing into a version. -/
theorem modifyVersion (m : Model) (handle : Nat) {f : Version → Version}
    (hf : ∀ v, (f v).entry = v.entry) : SameEntries m (m.modifyVersion handle f) :=
  ⟨map_modifyVersion m handle hf, fun _ _ => rfl, fun _ _ => rfl, rfl⟩

/-- Noting something with a function. -/
theorem modifyFunction (m : Model) (path name : String) {g : Function → Function}
    (hg : ∀ f, (g f).entry = f.entry) : SameEntries m (m.modifyFunction path name g) where
  versions := rfl
  function path' name' := by
    rw [function?_modifyFunction]
    split
    · rw [Option.map_map]
      exact congrArg (Option.map · (m.function? path' name')) (funext hg)
    · rfl
  inFile path' id := handleInFile?_modifyFunction m path name g
  homes := rfl

theorem foldl {α : Type} {step : Model → α → Model} (hstep : ∀ m a, SameEntries m (step m a))
    (m : Model) (items : List α) : SameEntries m (items.foldl step m) := by
  induction items generalizing m with
  | nil => exact refl m
  | cons a items ih => exact (hstep m a).trans (ih (step m a))

theorem exists_function (h : SameEntries m m') {f' : Function}
    (hf : m'.function? path name = some f') :
    ∃ f, m.function? path name = some f ∧ f.entry = f'.entry := by
  have hmap := h.function path name
  rw [hf, Option.map_some] at hmap
  exact Option.map_eq_some_iff.mp hmap.symm

theorem isSome_function? (h : SameEntries m m') :
    (m'.function? path name).isSome = (m.function? path name).isSome := by
  rw [← Option.isSome_map (f := Function.entry), h.function, Option.isSome_map]

theorem handleInFunction?_eq (h : SameEntries m m') (path name : String) (id : Int) :
    m'.handleInFunction? path name id = m.handleInFunction? path name id := by
  have hentry : ∀ m : Model, m.handleInFunction? path name id =
      ((m.function? path name).map Function.entry).bind fun f => f.versionsById.get? id :=
    fun m => by
      rw [Option.bind_map]
      rfl
  rw [hentry, hentry, h.function]

theorem handlesOf_eq (h : SameEntries m m') (path name : String) :
    m'.handlesOf path name = m.handlesOf path name := by
  have hentry : ∀ m : Model, m.handlesOf path name =
      (((m.function? path name).map Function.entry).map (·.versions)).getD [] := fun m => by
    rw [Option.map_map]
    rfl
  rw [hentry, hentry, h.function]

end SameEntries

/-! ### The index -/

/-- **An indexed model**, with the functions that have been created for it, in order: its
arena is coherent, and its tables hold what a scan of the arena finds. -/
structure Indexed (created : List (String × String)) (m : Model) : Prop where
  coherent : Coherent m
  /-- A compile id means the last version of the file that has it. -/
  inFile : ∀ path id, m.handleInFile? path id =
    (m.compiledHandles fun v => v.file = path ∧ v.compileId = some id).getLast?
  /-- In a function it means the last version of the function that has it. -/
  inFunction : ∀ path name id, m.handleInFunction? path name id =
    (m.compiledHandles fun v => v.file = path ∧ v.name = name ∧ v.compileId = some id).getLast?
  /-- A function has the versions of its file and name. -/
  handles : ∀ path name, m.handlesOf path name =
    m.compiledHandles fun v => v.file = path ∧ v.name = name
  /-- A function stands under its file and name. -/
  named : ∀ {path name f}, m.function? path name = some f → f.file = path ∧ f.name = name
  /-- The functions that are there are those that have been created. -/
  mem_created_iff : ∀ path name, (path, name) ∈ created ↔ (m.function? path name).isSome
  /-- A name means the last function of that name. -/
  home_eq : ∀ name, m.homes.get? name = lastHome? created name

namespace Indexed

theorem empty : Indexed [] Model.empty where
  coherent := coherent_empty
  inFile _ _ := rfl
  inFunction _ _ _ := rfl
  handles _ _ := rfl
  named hf := absurd hf (by simp [function?, Model.empty])
  mem_created_iff _ _ := by simp [function?, Model.empty]
  home_eq _ := rfl

/-- **Whatever leaves the entries as they are** leaves the index in order. -/
theorem of_sameEntries (hm : Indexed created m) (h : SameEntries m m') : Indexed created m' where
  coherent := hm.coherent.of_entries h.versions
  inFile path id := by
    rw [h.inFile, compiledHandles_of_entries (fun _ => Iff.rfl) h.versions, hm.inFile]
  inFunction path name id := by
    rw [h.handleInFunction?_eq, compiledHandles_of_entries (fun _ => Iff.rfl) h.versions,
      hm.inFunction]
  handles path name := by
    rw [h.handlesOf_eq, compiledHandles_of_entries (fun _ => Iff.rfl) h.versions, hm.handles]
  named hf := by
    obtain ⟨f, hf, heq⟩ := h.exists_function hf
    obtain ⟨hname, hfile, -, -⟩ := Function.fields_of_entry heq
    rw [← hfile, ← hname]
    exact hm.named hf
  mem_created_iff path name := by rw [h.isSome_function?, hm.mem_created_iff]
  home_eq name := by rw [h.homes, hm.home_eq]

theorem registerFile (hm : Indexed created m) (path : String) :
    Indexed created (m.registerFile path) where
  coherent := hm.coherent.congr rfl
  inFile path' id := (handleInFile?_registerFile m path).trans (hm.inFile path' id)
  inFunction path' name id :=
    (handleInFunction?_registerFile m path).trans (hm.inFunction path' name id)
  handles path' name := (handlesOf_registerFile m path).trans (hm.handles path' name)
  named hf := hm.named (function?_registerFile m path ▸ hf)
  mem_created_iff path' name := by rw [function?_registerFile, hm.mem_created_iff]
  home_eq := hm.home_eq

end Indexed

theorem versions_registerFunction (m : Model) (path name : String) :
    (m.registerFunction path name).versions = m.versions := by
  unfold registerFunction
  split
  · rfl
  split
  · rfl
  · rfl

theorem versions_registerVersion (m : Model) (path name : String) (id : Int) (code : Text) :
    (m.registerVersion path name id code).versions = m.versions.push
      { handle := m.nextHandle, file := path, name, code, compileId := some id } := rfl

namespace Indexed

/-- **Creating a function.** -/
theorem registerFunction (hm : Indexed created m) (hfile : (m.files.get? path).isSome)
    (name : String) : Indexed (create created path name) (m.registerFunction path name) := by
  have hversions := versions_registerFunction m path name
  refine ⟨hm.coherent.congr hversions, fun path' id => ?_, fun path' name' id => ?_,
    fun path' name' => ?_, fun hf => ?_, fun path' name' => ?_, fun name' => ?_⟩
  · rw [handleInFile?_registerFunction, compiledHandles_congr hversions, hm.inFile]
  · rw [handleInFunction?_registerFunction hfile, compiledHandles_congr hversions, hm.inFunction]
  · rw [handlesOf_registerFunction hfile, compiledHandles_congr hversions, hm.handles]
  · rw [function?_registerFunction hfile] at hf
    split at hf
    · next heq =>
      rw [heq.1, heq.2, ← Option.some.inj hf]
      cases hold : m.function? path name with
      | none => exact ⟨rfl, rfl⟩
      | some f => exact hm.named hold
    · exact hm.named hf
  · rw [mem_create_iff, function?_registerFunction hfile, hm.mem_created_iff]
    by_cases heq : path' = path ∧ name' = name <;> simp [heq]
  · rw [homes_registerFunction hfile, create]
    -- only a function that is new becomes the home of its name
    by_cases hknown : (path, name) ∈ created
    · rw [if_pos (List.contains_iff_mem.mpr hknown),
        if_pos ((hm.mem_created_iff _ _).mp hknown), hm.home_eq]
    · rw [if_neg (fun h => hknown (List.contains_iff_mem.mp h)),
        if_neg (fun hsome => hknown ((hm.mem_created_iff _ _).mpr hsome)),
        Registry.get?_insert, lastHome?_append, hm.home_eq]

/-- **Adding a compiled version** to its function. -/
theorem registerVersion (hm : Indexed created m) (hf : (m.function? path name).isSome)
    (id : Int) (code : Text) : Indexed created (m.registerVersion path name id code) := by
  have hscan : ∀ (p : Version → Prop) [DecidablePred p],
      (m.registerVersion path name id code).compiledHandles p = m.compiledHandles p ++
        if p { handle := m.nextHandle, file := path, name, code, compileId := some id } then
          [m.nextHandle] else [] := fun p _ => by
    refine (compiledHandles_congr rfl).trans ((compiledHandles_addVersion m fun handle =>
      { handle, file := path, name, code, compileId := some id }).trans ?_)
    simp [Version.isInline]
  have hfun : ∀ path' name', (m.registerVersion path name id code).function? path' name' = _ :=
    fun _ _ => function?_registerVersion m path name id code
  refine ⟨?_, fun path' id' => ?_, fun path' name' id' => ?_, fun path' name' => ?_,
    fun {path' name' f} hf' => ?_, fun path' name' => ?_, hm.home_eq⟩
  · have hadd : Coherent (m.addVersion fun handle =>
        { handle, file := path, name, code, compileId := some id }) :=
      hm.coherent.addCompiled rfl rfl rfl
    exact hadd.congr rfl
  · rw [handleInFile?_registerVersion (isSome_get?_of_function? hf), hscan, hm.inFile]
    by_cases heq : path' = path ∧ id' = id
    · obtain ⟨rfl, rfl⟩ := heq
      simp
    · rw [if_neg heq, if_neg, List.append_nil]
      rintro ⟨rfl, hid⟩
      exact heq ⟨rfl, (Option.some.inj hid).symm⟩
  · rw [handleInFunction?_registerVersion hf, hscan, hm.inFunction]
    by_cases heq : path' = path ∧ name' = name ∧ id' = id
    · obtain ⟨rfl, rfl, rfl⟩ := heq
      simp
    · rw [if_neg heq, if_neg, List.append_nil]
      rintro ⟨rfl, rfl, hid⟩
      exact heq ⟨rfl, rfl, (Option.some.inj hid).symm⟩
  · rw [handlesOf_registerVersion hf, hscan, hm.handles]
    simp only [eq_comm]
  · rw [hfun] at hf'
    split at hf'
    · obtain ⟨f₀, hf₀, rfl⟩ := Option.map_eq_some_iff.mp hf'
      obtain ⟨hfile, hname⟩ := hm.named hf₀
      exact ⟨hfile, hname⟩
    · exact hm.named hf'
  · rw [hfun, hm.mem_created_iff]
    split
    · rw [Option.isSome_map]
    · rfl

/-- **Registering a copy**: the tables of files and functions are not concerned. -/
theorem registerCopy (hm : Indexed created m) {owner : Version} {copyName : String}
    {secondId : Int} {code : Text} (howner : m.versions[owner.handle]? = some owner)
    (hreg : m.registerCopy owner copyName secondId code = .ok m') : Indexed created m' := by
  have hcoherent := hm.coherent.registerCopy howner hreg
  have hscan {p : Version → Prop} [DecidablePred p] :=
    compiledHandles_registerCopy (p := p) hreg
  obtain ⟨-, rfl⟩ := registerCopy_eq_ok_iff.mp hreg
  refine ⟨hcoherent, fun path' id => ?_, fun path' name' id => ?_, fun path' name' => ?_,
    hm.named, hm.mem_created_iff, hm.home_eq⟩
  · rw [hscan fun _ _ => Iff.rfl]
    exact hm.inFile path' id
  · rw [hscan fun _ _ => Iff.rfl]
    exact hm.inFunction path' name' id
  · rw [hscan fun _ _ => Iff.rfl]
    exact hm.handles path' name'

end Indexed

end Model

end InlineReport
