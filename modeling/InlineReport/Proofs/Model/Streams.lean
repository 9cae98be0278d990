import InlineReport.Proofs.Data.Outcome
import InlineReport.Proofs.Model.Sources

/-!
# The three streams

Building a model goes through the three streams of a trace one after the other
(`Model.exists_of_buildModel`). Only source blocks make versions and functions; the other two
streams write into what is there. **IR blocks** do nothing but append operations to versions
(`Model.runtimeGrown_applyIrs`), wherever the work on them stops, and **refusals** leave all
versions alone (`Model.versions_applyRefusals`).
-/

namespace InlineReport

namespace Model

variable {m m' m'' : Model} {code ir log : Text}

/-- **A model is built** in three steps. -/
theorem exists_of_buildModel (h : buildModel code ir log = .ok m) :
    ∃ sources built blocks routed, scanSources code = .ok sources ∧
      (Model.empty.applySources sources).result = .ok built ∧ scanIr ir = .ok blocks ∧
      (built.applyIrs blocks).result = .ok routed ∧
      m = routed.applyRefusals (scanRefusals log) := by
  unfold buildModel buildNoted at h
  split at h
  · exact absurd h (by simp)
  · next built first hsources =>
    split at h
    · exact absurd h (by simp)
    · next routed second hir =>
      obtain ⟨sources, hscan, hbuilt⟩ := bind_eq_ok_iff.mp hsources
      obtain ⟨built', happly, hpair⟩ := bind_eq_ok_iff.mp hbuilt
      obtain ⟨rfl, -⟩ := Prod.mk.inj (Except.ok.inj hpair)
      obtain ⟨blocks, hscan', hrouted⟩ := bind_eq_ok_iff.mp hir
      obtain ⟨routed', happly', hpair'⟩ := bind_eq_ok_iff.mp hrouted
      obtain ⟨rfl, -⟩ := Prod.mk.inj (Except.ok.inj hpair')
      exact ⟨sources, built', blocks, routed', hscan, happly, hscan', happly',
        (Except.ok.inj h).symm⟩

/-! ### IR blocks -/

/-- **Operations have been appended** to versions, and nothing else has been changed. -/
structure RuntimeGrown (m m' : Model) : Prop where
  files : m'.files = m.files
  homes : m'.homes = m.homes
  versions : ∀ h : Nat, ∃ calls, m'.versions[h]? =
    (m.versions[h]?).map fun v => { v with runtime := v.runtime ++ calls }

namespace RuntimeGrown

theorem refl (m : Model) : RuntimeGrown m m where
  files := rfl
  homes := rfl
  versions h := ⟨[], by simp⟩

theorem trans (h : RuntimeGrown m m') (h' : RuntimeGrown m' m'') : RuntimeGrown m m'' where
  files := h'.files.trans h.files
  homes := h'.homes.trans h.homes
  versions k := by
    obtain ⟨calls, hcalls⟩ := h.versions k
    obtain ⟨calls', hcalls'⟩ := h'.versions k
    refine ⟨calls ++ calls', ?_⟩
    rw [hcalls', hcalls, Option.map_map]
    simp only [Function.comp_def, List.append_assoc]

/-- Appending operations to one version. -/
theorem modifyVersion (m : Model) (handle : Nat) (calls : List RuntimeCall) :
    RuntimeGrown m (m.modifyVersion handle fun v => { v with runtime := v.runtime ++ calls }) where
  files := rfl
  homes := rfl
  versions h := by
    rw [getElem?_modifyVersion]
    split
    · exact ⟨calls, rfl⟩
    · exact ⟨[], by simp⟩

/-- What does not depend on operations stays as it is. -/
theorem map_versions {β : Type} {f : Version → β}
    (hf : ∀ v calls, f { v with runtime := calls } = f v) (h : RuntimeGrown m m') :
    m'.versions.map f = m.versions.map f := by
  refine Array.ext_getElem? fun k => ?_
  obtain ⟨calls, hcalls⟩ := h.versions k
  rw [Array.getElem?_map, Array.getElem?_map, hcalls, Option.map_map]
  exact congrArg (Option.map · m.versions[k]?) (funext fun v => hf v _)

theorem sameEntries (h : RuntimeGrown m m') : SameEntries m m' where
  versions := h.map_versions fun _ _ => rfl
  function path name := by rw [function?, h.files, function?]
  inFile path id := by rw [handleInFile?, h.files, handleInFile?]
  homes := h.homes

end RuntimeGrown

theorem runtimeGrown_applyChange (context : String) (handle : Nat) (m : Model) (c : Change) :
    RuntimeGrown m (applyChange context handle m c).model := by
  unfold applyChange
  split
  · exact .refl m
  split
  · exact .refl m
  · exact .modifyVersion m _ _

theorem runtimeGrown_applyIr (m : Model) (b : IrBlock) : RuntimeGrown m (m.applyIr b).model := by
  unfold applyIr
  split
  · exact .refl m
  · exact Progress.model_forAll _ (RuntimeGrown m)
      (fun m' c hm => hm.trans (runtimeGrown_applyChange _ _ m' c)) (.refl m)

/-- **IR blocks append operations** to versions and do nothing else, wherever the work stops. -/
theorem runtimeGrown_applyIrs (m : Model) (blocks : List IrBlock) :
    RuntimeGrown m (m.applyIrs blocks).model :=
  Progress.model_forAll applyIr (RuntimeGrown m)
    (fun m' b hm => hm.trans (runtimeGrown_applyIr m' b)) (.refl m)

/-! ### Refusals -/

theorem sameEntries_applyRefusal (m : Model) (r : Refusal) : SameEntries m (m.applyRefusal r) := by
  unfold applyRefusal
  split
  · exact .refl m
  · exact .modifyFunction m _ _ fun _ => rfl

theorem sameEntries_applyRefusals (m : Model) (notices : List Refusal) :
    SameEntries m (m.applyRefusals notices) :=
  SameEntries.foldl sameEntries_applyRefusal m notices

/-- **Refusals** leave versions alone. -/
theorem versions_applyRefusals (m : Model) (notices : List Refusal) :
    (m.applyRefusals notices).versions = m.versions := by
  induction notices generalizing m with
  | nil => rfl
  | cons r notices ih =>
    refine (ih (m.applyRefusal r)).trans ?_
    unfold applyRefusal
    split
    · rfl
    · rfl

end Model

end InlineReport
