import InlineReport.Proofs.Model.Streams
import InlineReport.Proofs.View.Segment

/-!
# Offsets of a trace

What a trace says about offsets are numbers of digits, so that **offsets count from the beginning**
in every model of a trace (`Model.offsetsNonneg_of_buildModel`). Whatever is known of marked code
in which offsets count from the beginning holds for such a model without further ado.
-/

namespace InlineReport

namespace Model

variable {m : Model} {code ir log : Text}

/-! ### Versions one by one -/

/-- Changing a version keeps what is true of every version, if the change does. -/
theorem forall_mem_modifyVersion {P : Version → Prop} (hm : ∀ v ∈ m.versions, P v) (handle : Nat)
    {f : Version → Version} (hf : ∀ v, P v → P (f v)) :
    ∀ v ∈ (m.modifyVersion handle f).versions, P v := by
  intro v hv
  obtain ⟨h, hv⟩ := mem_versions_iff.mp hv
  rw [getElem?_modifyVersion] at hv
  split at hv
  · obtain ⟨v₀, hv₀, rfl⟩ := Option.map_eq_some_iff.mp hv
    exact hf v₀ (hm v₀ (mem_versions_iff.mpr ⟨h, hv₀⟩))
  · exact hm v (mem_versions_iff.mpr ⟨h, hv⟩)

theorem forall_mem_addVersion {P : Version → Prop} (hm : ∀ v ∈ m.versions, P v)
    {content : Nat → Version} (hnew : P (content m.nextHandle)) :
    ∀ v ∈ (m.addVersion content).versions, P v := by
  intro v hv
  obtain ⟨h, hv⟩ := mem_versions_iff.mp hv
  rw [getElem?_addVersion] at hv
  split at hv
  · rwa [← Option.some.inj hv]
  · exact hm v (mem_versions_iff.mpr ⟨h, hv⟩)

/-! ### Blocks -/

theorem OffsetsNonneg.place (hm : OffsetsNonneg m) (child parent offset : Nat) :
    OffsetsNonneg (m.place child parent offset) := by
  refine forall_mem_modifyVersion (forall_mem_modifyVersion hm child ?_) parent ?_
  · rintro v ⟨-, hcalls⟩
    exact ⟨Int.natCast_nonneg offset, hcalls⟩
  · exact fun v hv => hv

/-- **The block of a copy** gives its copy no other offset than a number. -/
theorem OffsetsNonneg.applyInline (hm : OffsetsNonneg m) (hcoherent : Coherent m)
    (b : SourceBlock) : OffsetsNonneg (m.applyInline b).model := by
  have hcopy : ∀ {owner grown}, m.registerCopy owner b.name b.secondId b.code = .ok grown →
      OffsetsNonneg (grown.noteDeopts owner.handle b.deopts) := by
    intro owner grown hgrown
    obtain ⟨-, rfl⟩ := registerCopy_eq_ok_iff.mp hgrown
    refine forall_mem_modifyVersion (forall_mem_modifyVersion (forall_mem_addVersion hm ?_) _ ?_)
      _ ?_
    · exact ⟨Int.le_refl 0, List.forall_mem_nil _⟩
    · exact fun v hv => hv
    · exact fun v hv => hv
  have hstep := inlineStep_applyInline (b := b) hcoherent
  generalize m.applyInline b = p at hstep
  cases hstep with
  | unowned _ => exact hm
  | repeated _ _ => exact hm
  | unplaced _ hgrown _ => exact hcopy hgrown
  | nowhere _ hgrown _ _ _ _ => exact hcopy hgrown
  | inItself _ hgrown _ _ => exact hcopy hgrown
  | placed _ hgrown _ _ => exact (hcopy hgrown).place _ _ _

theorem OffsetsNonneg.applySource (hm : OffsetsNonneg m) (hcoherent : Coherent m)
    (b : SourceBlock) : OffsetsNonneg (m.applySource b).model := by
  unfold Model.applySource
  split
  · exact hm.applyInline hcoherent b
  · have hadd : OffsetsNonneg (m.addVersion fun _ => m.newCompiled b) :=
      forall_mem_addVersion hm ⟨Int.le_refl 0, List.forall_mem_nil _⟩
    intro v hv
    exact hadd v (versions_applyCompiled m b ▸ hv)

/-- **An operation** is noted with a number as its offset. -/
theorem OffsetsNonneg.applyChange (hm : OffsetsNonneg m) (context : String) (handle : Nat)
    (c : Change) : OffsetsNonneg (Model.applyChange context handle m c).model := by
  unfold Model.applyChange
  split
  · exact hm
  split
  · exact hm
  · refine forall_mem_modifyVersion hm _ ?_
    rintro v ⟨hoffset, hcalls⟩
    exact ⟨hoffset, List.forall_mem_append.mpr
      ⟨hcalls, List.forall_mem_singleton.mpr (Int.natCast_nonneg c.offset)⟩⟩

theorem OffsetsNonneg.applyIr (hm : OffsetsNonneg m) (b : IrBlock) :
    OffsetsNonneg (m.applyIr b).model := by
  unfold Model.applyIr
  split
  · exact hm
  · exact Progress.model_forAll _ OffsetsNonneg (fun m c hm => hm.applyChange _ _ c) hm

/-! ### The three streams -/

theorem offsetsNonneg_of_applySources {sources : List SourceBlock}
    (h : (Model.empty.applySources sources).result = .ok m) : OffsetsNonneg m := by
  obtain ⟨built, hrun, rfl⟩ := exists_of_applySources h
  have hbuilt : OffsetsNonneg built ∧ ∃ created, Indexed created built := by
    rw [← Progress.model_eq_of_result hrun]
    refine Progress.model_forAll Model.applySource
      (fun m => OffsetsNonneg m ∧ ∃ created, Indexed created m) ?_ ⟨?_, [], .empty⟩
    · rintro m b ⟨hoffsets, created, hindexed⟩
      exact ⟨hoffsets.applySource hindexed.coherent b, _, hindexed.applySource b⟩
    · exact fun v hv => absurd hv (by simp [Model.empty])
  intro v hv
  exact hbuilt.1 v (versions_markDeopted built ▸ hv)

/-- **Offsets count from the beginning** in every model of a trace. -/
theorem offsetsNonneg_of_buildModel (h : buildModel code ir log = .ok m) : OffsetsNonneg m := by
  obtain ⟨sources, built, blocks, routed, -, hbuilt, -, hrouted, rfl⟩ := exists_of_buildModel h
  have hrouted' : OffsetsNonneg routed := by
    rw [← Progress.model_eq_of_result hrouted]
    exact Progress.model_forAll Model.applyIr OffsetsNonneg (fun m b hm => hm.applyIr b)
      (offsetsNonneg_of_applySources hbuilt)
  intro v hv
  exact hrouted' v (versions_applyRefusals routed (scanRefusals log) ▸ hv)

end Model

end InlineReport
