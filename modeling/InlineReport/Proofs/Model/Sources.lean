import InlineReport.Proofs.Model.InlineBlock

/-!
# Source blocks keep a model indexed

Each source block keeps a model indexed (`Model.Indexed.applySource`), the block of a compiled
version as well as the block of a copy, and the latter also when it goes wrong. So does a list
of them (`Model.Indexed.applySources`): what has been created are the functions that the
blocks introduce, up to where the work stopped.
-/

namespace InlineReport

namespace Model

variable {m m' : Model} {created : List (String × String)} {b : SourceBlock}

/-! ### Single blocks -/

namespace Indexed

/-- **The block of a compiled version** creates its function and adds the version. -/
theorem applyCompiled (hm : Indexed created m) (hb : b.isInline = false) :
    Indexed (introduce created b) (m.applyCompiled b) := by
  have hfile := isSome_get?_registerFile m b.file
  have hfunction := (hm.registerFile b.file).registerFunction hfile b.name
  have hknown : (((m.registerFile b.file).registerFunction b.file b.name).function?
      b.file b.name).isSome := by
    rw [function?_registerFunction hfile, if_pos ⟨rfl, rfl⟩, Option.isSome_some]
  rw [introduce_of_compiled hb]
  exact (hfunction.registerVersion hknown b.compileId b.code).of_sameEntries
    (sameEntries_noteDeopts _ _ _)

/-- **The block of a copy** adds a copy at most. -/
theorem applyInline (hm : Indexed created m) (b : SourceBlock) :
    Indexed created (m.applyInline b).model := by
  have hcopy : ∀ owner grown, m.fileVersion b.file b.compileId = .ok owner →
      m.registerCopy owner b.name b.secondId b.code = .ok grown →
      Indexed created (grown.noteDeopts owner.handle b.deopts) :=
    fun owner grown howner hgrown =>
      (hm.registerCopy (hm.coherent.getElem?_of_fileVersion howner) hgrown).of_sameEntries
        (sameEntries_noteDeopts _ _ _)
  refine (inlineStep_applyInline hm.coherent).model_induction hm hcopy ?_
  intro owner grown parent offset howner hgrown _
  exact (hcopy owner grown howner hgrown).of_sameEntries (sameEntries_place _ _ _ _)

theorem applySource (hm : Indexed created m) (b : SourceBlock) :
    Indexed (introduce created b) (m.applySource b).model := by
  unfold Model.applySource
  split
  · next hb =>
    rw [introduce_of_inline hb]
    exact hm.applyInline b
  · next hb => exact hm.applyCompiled (by simpa using hb)

end Indexed

/-- The version that the block of a compiled version adds. -/
def newCompiled (m : Model) (b : SourceBlock) : Version :=
  { handle := m.nextHandle, file := b.file, name := b.name, code := b.code
    compileId := some (b.compileId : Int), deopts := b.deopts }

/-- **The arena with a compiled version added**: it comes last. -/
theorem versions_applyCompiled (m : Model) (b : SourceBlock) :
    (m.applyCompiled b).versions = (m.addVersion fun _ => m.newCompiled b).versions := by
  have hversions : (((m.registerFile b.file).registerFunction b.file b.name).registerVersion
      b.file b.name b.compileId b.code).versions = m.versions.push
        { handle := m.nextHandle, file := b.file, name := b.name, code := b.code
          compileId := some (b.compileId : Int) } := by
    rw [versions_registerVersion, nextHandle, versions_registerFunction]
    rfl
  refine Array.ext_getElem? fun h => ?_
  rw [applyCompiled, getElem?_modifyVersion, hversions, getElem?_addVersion, Array.getElem?_push,
    ← nextHandle]
  by_cases hh : h = m.nextHandle
  · rw [if_pos hh, if_pos hh, if_pos hh]
    rfl
  · rw [if_neg hh, if_neg hh, if_neg hh]

/-! ### Lists of blocks -/

theorem model_requireForest (m : Model) : m.requireForest.model = m := by
  unfold requireForest
  split
  · rfl
  · rfl
  · rfl

theorem sameEntries_markHome (m : Model) (home : String × String) :
    SameEntries m (m.markHome home) :=
  .modifyFunction m home.2 home.1 fun _ => rfl

theorem sameEntries_markDeopted (m : Model) : SameEntries m m.markDeopted :=
  SameEntries.foldl sameEntries_markHome m m.homes.entries

/-- Marking functions leaves versions alone. -/
theorem versions_markDeopted (m : Model) : m.markDeopted.versions = m.versions :=
  (function?_markDeopted m "" "").1

/-- What the source blocks of a list leave holds of the model before the functions are
marked. -/
theorem model_applySources {inv : Model → Prop} (hmark : ∀ m, inv m → inv m.markDeopted)
    {blocks : List SourceBlock} (h : inv (Progress.forAll Model.applySource m blocks).model) :
    inv (m.applySources blocks).model :=
  Progress.model_andThen
    (Progress.model_andThen h fun m hm => by rwa [model_requireForest]) hmark

/-- **Source blocks** keep a model indexed, wherever the work stops. -/
theorem Indexed.applySources (hm : Indexed created m) (blocks : List SourceBlock) :
    Indexed ((Progress.attempted Model.applySource m blocks).foldl introduce created)
      (m.applySources blocks).model :=
  model_applySources (fun m hm => hm.of_sameEntries (sameEntries_markDeopted m))
    (Progress.model_forAll_induction Model.applySource introduce Indexed
      (fun _ _ b hm => hm.applySource b) hm)

/-- What source blocks make is what the single blocks leave, with marks. -/
theorem exists_of_applySources {blocks : List SourceBlock}
    (h : (m.applySources blocks).result = .ok m') :
    ∃ built, (Progress.forAll Model.applySource m blocks).result = .ok built ∧
      m' = built.markDeopted := by
  obtain ⟨built, hrun, hmark⟩ := Progress.result_andThen_eq_ok_iff.mp h
  obtain ⟨grown, hrun, hforest⟩ := Progress.result_andThen_eq_ok_iff.mp hrun
  obtain rfl := eq_of_requireForest hforest
  exact ⟨built, hrun, (Except.ok.inj hmark).symm⟩

end Model

end InlineReport
