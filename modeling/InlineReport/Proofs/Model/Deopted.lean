import InlineReport.Proofs.Model.Progress
import InlineReport.Proofs.Model.Table

/-!
# Which functions are marked as deoptimised

After the source blocks have been applied, functions are marked as deoptimised by going
through the names that calls may use. A name means one function only, the one that was
introduced last; a function of the same name in an earlier file is never looked at and
stays unmarked, however often its versions have been deoptimised
(`Model.unmarked_sharedName`). For the functions that a name means, and only for these,
the mark says whether one of their versions has been deoptimised (`Model.deopted_iff`).

Which function a name means is read off the trace: `introductions` lists the functions as
the blocks introduce them, and the work on the blocks keeps the model in agreement with
that list (`Model.Introduced`).
-/

namespace InlineReport

/-! ### What a trace introduces -/

/-- The functions that are known after a further block, by file and name: a compiled
version introduces its function, unless it is known already. -/
def introduce (known : List (String × String)) (b : SourceBlock) : List (String × String) :=
  if b.isInline ∨ (b.file, b.name) ∈ known then known else known ++ [(b.file, b.name)]

/-- **The functions that blocks introduce**, by file and name, in order. -/
def introductions (blocks : List SourceBlock) : List (String × String) :=
  blocks.foldl introduce []

/-- The file whose function of a name was introduced last. -/
def lastHome? (known : List (String × String)) (name : String) : Option String :=
  (known.reverse.find? (·.2 = name)).map (·.1)

theorem mem_introduce {known : List (String × String)} {b : SourceBlock} (hb : b.isInline = false)
    {path name : String} :
    (path, name) ∈ introduce known b ↔
      (path = b.file ∧ name = b.name) ∨ (path, name) ∈ known := by
  unfold introduce
  split
  · next h =>
    refine ⟨Or.inr, fun hmem => hmem.elim ?_ id⟩
    rintro ⟨rfl, rfl⟩
    exact h.resolve_left (by simp [hb])
  · rw [List.mem_append, List.mem_singleton, Prod.mk.injEq, or_comm]

theorem lastHome?_append (known : List (String × String)) (path name name' : String) :
    lastHome? (known ++ [(path, name)]) name' =
      if name = name' then some path else lastHome? known name' := by
  unfold lastHome?
  rw [List.reverse_append, List.reverse_singleton, List.singleton_append, List.find?_cons]
  by_cases h : name = name' <;> simp [h]

namespace Model

variable {m m' : Model} {known : List (String × String)} {b : SourceBlock}

/-! ### The work on the blocks -/

/-- **A model in agreement with what has been introduced**: it has exactly these functions,
each in its place and not marked yet, and a name means the last one of them. -/
structure Introduced (known : List (String × String)) (m : Model) : Prop where
  mem_iff : ∀ path name, (path, name) ∈ known ↔ (m.function? path name).isSome
  fresh : ∀ path name f, m.function? path name = some f →
    f.file = path ∧ f.name = name ∧ f.deopted = false
  home_eq : ∀ name, m.homes.get? name = lastHome? known name

theorem introduced_empty : Introduced [] Model.empty where
  mem_iff _ _ := by simp [function?, empty]
  fresh _ _ _ h := by simp [function?, empty] at h
  home_eq _ := rfl

theorem Introduced.congr (h : Introduced known m) (hfiles : m'.files = m.files)
    (hhomes : m'.homes = m.homes) : Introduced known m' := by
  have hfun : ∀ path name, m'.function? path name = m.function? path name := fun path name => by
    rw [function?, hfiles, function?]
  refine ⟨fun path name => ?_, fun path name f hf => ?_, fun name => ?_⟩
  · rw [hfun, h.mem_iff]
  · exact h.fresh path name f (hfun path name ▸ hf)
  · rw [hhomes, h.home_eq]

/-- Placing a copy leaves files and names alone. -/
theorem files_homes_placeCopy (m : Model) (context : String) (owner child : Nat)
    (place : Placement) :
    (m.placeCopy context owner child place).model.files = m.files ∧
      (m.placeCopy context owner child place).model.homes = m.homes := by
  unfold placeCopy
  split
  · exact ⟨rfl, rfl⟩
  split
  · exact ⟨rfl, rfl⟩
  split
  · exact ⟨rfl, rfl⟩
  · exact ⟨rfl, rfl⟩

theorem files_homes_registerCopy {owner : Version} {name : String} {secondId : Int} {code : Text}
    (h : m.registerCopy owner name secondId code = .ok m') :
    m'.files = m.files ∧ m'.homes = m.homes := by
  unfold registerCopy at h
  split at h
  · exact absurd h (by simp)
  · obtain rfl := Except.ok.inj h
    exact ⟨rfl, rfl⟩

/-- **The block of a copy** leaves files and names alone. -/
theorem files_homes_applyInline (m : Model) (b : SourceBlock) :
    (m.applyInline b).model.files = m.files ∧ (m.applyInline b).model.homes = m.homes := by
  unfold applyInline
  simp only
  split
  · exact ⟨rfl, rfl⟩
  split
  · exact ⟨rfl, rfl⟩
  · next grown hgrown =>
    have hcopy := files_homes_registerCopy hgrown
    split
    · exact hcopy
    · next place _ =>
      obtain ⟨hfiles, hhomes⟩ := files_homes_placeCopy _ (inlineContext b) _ m.nextHandle place
      exact ⟨hfiles.trans hcopy.1, hhomes.trans hcopy.2⟩

theorem function?_applyCompiled (m : Model) (b : SourceBlock) (path name : String) :
    (m.applyCompiled b).function? path name =
      if path = b.file ∧ name = b.name then
        let f := (m.function? b.file b.name).getD { name := b.name, file := b.file }
        some { f with
          versions := f.versions ++ [m.nextHandle]
          versionsById := f.versionsById.insert b.compileId m.nextHandle }
      else m.function? path name := by
  rw [applyCompiled, function?_modifyVersion, function?_registerVersion,
    nextHandle_registerFunction, function?_registerFunction (isSome_get?_registerFile m b.file),
    function?_registerFile, function?_registerFile]
  split
  · rfl
  · rfl

theorem homes_applyCompiled (m : Model) (b : SourceBlock) :
    (m.applyCompiled b).homes =
      if (m.function? b.file b.name).isSome then m.homes else m.homes.insert b.name b.file := by
  have h : (m.applyCompiled b).homes = _ :=
    homes_registerFunction (isSome_get?_registerFile m b.file)
  rwa [function?_registerFile] at h

/-- **The block of a compiled version** introduces its function. -/
theorem Introduced.applyCompiled (h : Introduced known m) (hb : b.isInline = false) :
    Introduced (introduce known b) (m.applyCompiled b) := by
  refine ⟨fun path name => ?_, fun path name f hf => ?_, fun name => ?_⟩
  · rw [mem_introduce hb, function?_applyCompiled]
    split
    · next heq => simp [heq]
    · next hne => simp [hne, h.mem_iff]
  · rw [function?_applyCompiled] at hf
    split at hf
    · next heq =>
      obtain rfl := Option.some.inj hf
      obtain ⟨rfl, rfl⟩ := heq
      cases hold : m.function? b.file b.name with
      | none => exact ⟨rfl, rfl, rfl⟩
      | some f => exact h.fresh _ _ f hold
    · exact h.fresh path name f hf
  · rw [homes_applyCompiled, introduce]
    -- only a function that is new becomes the home of its name
    by_cases hknown : (b.file, b.name) ∈ known
    · rw [if_pos (Or.inr hknown), if_pos ((h.mem_iff _ _).mp hknown), h.home_eq]
    · have hnew : ¬ (b.isInline = true ∨ (b.file, b.name) ∈ known) := by simp [hb, hknown]
      rw [if_neg hnew, if_neg (fun hsome => hknown ((h.mem_iff _ _).mpr hsome)),
        Registry.get?_insert, lastHome?_append, h.home_eq]

theorem Introduced.applySource (h : Introduced known m)
    (hm : (m.applySource b).result = .ok m') : Introduced (introduce known b) m' := by
  unfold Model.applySource at hm
  split at hm
  · next hb =>
    obtain ⟨hfiles, hhomes⟩ := files_homes_applyInline m b
    rw [introduce, if_pos (Or.inl hb), ← Progress.model_eq_of_result hm]
    exact h.congr hfiles hhomes
  · next hb =>
    obtain rfl := Except.ok.inj hm
    exact h.applyCompiled (by simpa using hb)

/-- **The work on all blocks** introduces what the blocks say. -/
theorem introduced_of_forAll {blocks : List SourceBlock}
    (h : (Progress.forAll applySource Model.empty blocks).result = .ok m) :
    Introduced (introductions blocks) m :=
  Progress.forAll_induction applySource introduce Introduced
    (fun _ _ _ _ hs hnext => hs.applySource hnext) introduced_empty h

/-! ### The marks -/

theorem anyDeopted_iff {handles : List Nat} :
    m.anyDeopted handles = true ↔
      ∃ handle ∈ handles, ∃ v, m.version handle = .ok v ∧ v.deopts ≠ [] := by
  unfold anyDeopted
  simp only [List.any_eq_true, Option.any_eq_true, Bool.not_eq_true', List.isEmpty_eq_false_iff,
    version_eq_ok_iff]

/-- Marks one function. -/
def markHome (m : Model) (home : String × String) : Model :=
  m.modifyFunction home.2 home.1 fun f => { f with deopted := m.anyDeopted f.versions }

theorem function?_markHome (m : Model) (home : String × String) (path name : String) :
    (m.markHome home).function? path name =
      if home = (name, path) then
        (m.function? path name).map fun f => { f with deopted := m.anyDeopted f.versions }
      else m.function? path name := by
  obtain ⟨name', path'⟩ := home
  rw [markHome, function?_modifyFunction]
  simp only [Prod.mk.injEq]
  split
  · next h => rw [if_pos ⟨h.2.symm, h.1.symm⟩]
  · next h => rw [if_neg fun h' => h ⟨h'.2.symm, h'.1.symm⟩]

/-- **A function is marked** if it is one of those gone through. A second mark says what
the first one says, since marks change neither versions nor which of them a function has. -/
theorem function?_foldl_markHome (m : Model) (homes : List (String × String))
    (path name : String) :
    (homes.foldl markHome m).versions = m.versions ∧
    (homes.foldl markHome m).function? path name =
      if (name, path) ∈ homes then
        (m.function? path name).map fun f => { f with deopted := m.anyDeopted f.versions }
      else m.function? path name := by
  induction homes generalizing m with
  | nil => simp
  | cons home homes ih =>
    obtain ⟨hversions, hfun⟩ := ih (m.markHome home)
    -- marks do not change versions
    have hany : ∀ handles, (m.markHome home).anyDeopted handles = m.anyDeopted handles :=
      fun _ => rfl
    refine ⟨hversions, ?_⟩
    rw [List.foldl_cons, hfun, function?_markHome]
    simp only [hany]
    by_cases hhome : home = (name, path)
    · rw [if_pos hhome, hhome]
      simp [Option.map_map, Function.comp_def]
    · simp [hhome, Ne.symm hhome]

theorem function?_markDeopted (m : Model) (path name : String) :
    m.markDeopted.versions = m.versions ∧ m.markDeopted.function? path name =
      if m.homes.get? name = some path then
        (m.function? path name).map fun f => { f with deopted := m.anyDeopted f.versions }
      else m.function? path name := by
  simp only [← Registry.mem_entries_iff]
  exact function?_foldl_markHome m m.homes.entries path name

/-- **What the mark says**: a function is marked if it is the one that its name means, the
one of that name that was introduced last, and one of its versions has been deoptimised. -/
theorem deopted_iff {blocks : List SourceBlock}
    (h : (Model.empty.applySources blocks).result = .ok m) {f : Function}
    (hf : f ∈ m.functions) :
    f.deopted = true ↔ lastHome? (introductions blocks) f.name = some f.file ∧
      ∃ handle ∈ f.versions, ∃ v, m.version handle = .ok v ∧ v.deopts ≠ [] := by
  obtain ⟨built, hrun, hmark⟩ := Progress.result_andThen_eq_ok_iff.mp h
  obtain ⟨grown, hrun, hforest⟩ := Progress.result_andThen_eq_ok_iff.mp hrun
  obtain rfl := eq_of_requireForest hforest
  have hm : built.markDeopted = m := Except.ok.inj hmark
  have hintro := introduced_of_forAll hrun
  obtain ⟨path, name, hf⟩ := mem_functions_iff.mp hf
  obtain ⟨hversions, hfun⟩ := function?_markDeopted built path name
  rw [hm] at hversions hfun
  have hany : m.anyDeopted f.versions = built.anyDeopted f.versions := by
    rw [anyDeopted, anyDeopted, hversions]
  rw [← anyDeopted_iff, hany]
  rw [hfun] at hf
  -- a function that its name does not mean has never been marked
  split at hf
  · next hhome =>
    obtain ⟨g, hg, rfl⟩ := Option.map_eq_some_iff.mp hf
    obtain ⟨hfile, hname, -⟩ := hintro.fresh _ _ _ hg
    simp only [hfile, hname, ← hintro.home_eq, hhome, true_and]
  · next hhome =>
    obtain ⟨hfile, hname, hfresh⟩ := hintro.fresh _ _ _ hf
    simp only [hfile, hname, hfresh, ← hintro.home_eq, hhome, false_and, Bool.false_eq_true]

/-- Two files with a function of one name, of which the first one has been deoptimised. -/
def sharedName : List SourceBlock := [
  { file := "a.js", name := "f", compileId := 0, secondId := 0, code := "x".toList
    deopts := ["wrong map"], placement := none },
  { file := "b.js", name := "f", compileId := 1, secondId := 0, code := "y".toList
    deopts := [], placement := none }]

/-- The model of the two files. -/
def sharedNameModel : Model := (Model.empty.applySources sharedName).model

theorem deopted_iff_sharedName :
    (Model.empty.applySources sharedName).result = .ok sharedNameModel ∧
      ∃ f ∈ sharedNameModel.functions,
        (f.deopted = true ↔ lastHome? (introductions sharedName) f.name = some f.file ∧
          ∃ handle ∈ f.versions, ∃ v, sharedNameModel.version handle = .ok v ∧ v.deopts ≠ []) := by
  have h : (Model.empty.applySources sharedName).result = .ok sharedNameModel := rfl
  have hf : ∃ f, f ∈ sharedNameModel.functions := ⟨_, List.mem_cons_self⟩
  obtain ⟨f, hf⟩ := hf
  exact ⟨h, f, hf, deopted_iff h hf⟩

/-- **A deoptimised function without a mark**: the mark does not say of every function
whether one of its versions has been deoptimised. -/
theorem unmarked_sharedName :
    ¬ ∀ (blocks : List SourceBlock) (m : Model),
      (Model.empty.applySources blocks).result = .ok m → ∀ f ∈ m.functions,
        (f.deopted = true ↔
          ∃ handle ∈ f.versions, ∃ v, m.version handle = .ok v ∧ v.deopts ≠ []) := by
  intro hall
  have hmark := hall sharedName sharedNameModel rfl _ List.mem_cons_self
  have hdeopted := hmark.mpr ⟨0, List.mem_cons_self, _, rfl, List.cons_ne_nil _ _⟩
  exact absurd hdeopted (by decide)

end Model

end InlineReport
