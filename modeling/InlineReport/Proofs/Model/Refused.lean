import InlineReport.Proofs.Model.Admission
import InlineReport.Proofs.Model.Streams
import InlineReport.Proofs.Trace.LongRun

/-!
# Traces without a model

A trace has no model if one of its streams cannot be scanned or if a block refers to what is not
there. The first is a fault of the trace or comes from a long run of digits; **the second is
always a fault of the trace**, for the lookups through the tables of a model never lead to a
handle without a version. So these two are all that stands against a model
(`exists_of_buildModel_eq_error`).
-/

namespace InlineReport

variable {m : Model} {e : Failure}

/-- Steps that can only fail for a fault of the trace, as long as something holds that they
preserve. -/
theorem Progress.exists_fault_of_forAll {α : Type} {step : Model → α → Progress}
    (inv : Model → Prop) (hkeep : ∀ m item m', inv m → (step m item).result = .ok m' → inv m')
    (hstep : ∀ m item e, inv m → (step m item).failure = some e → ∃ fault, e = .trace fault)
    (hm : inv m) {items : List α} (h : (forAll step m items).failure = some e) :
    ∃ fault, e = .trace fault := by
  obtain ⟨before, item, after, built, rfl, hbuilt, hfail⟩ := failure_forAll_eq_some_iff.mp h
  refine hstep built item e ?_ hfail
  exact forAll_induction step (fun (_ : Unit) _ => ()) (fun _ => inv) (fun _ => hkeep) (s := ())
    hm hbuilt

namespace Model

/-! ### Source blocks -/

theorem exists_fault_of_applySources {blocks : List SourceBlock}
    (h : (Model.empty.applySources blocks).result = .error e) : ∃ fault, e = .trace fault := by
  rw [Progress.result_eq_error_iff, failure_applySources ⟨.empty, [], .empty⟩,
    Progress.failure_forAll_eq_some_iff] at h
  obtain ⟨before, b, after, built, rfl, hbuilt, hfail⟩ := h
  obtain ⟨-, fault, -, rfl⟩ := (failure_applySource_eq_some_iff hbuilt).mp hfail
  exact ⟨fault, rfl⟩

/-! ### IR blocks -/

/-- A change that cannot be added to a version names a copy that is not there. -/
theorem exists_fault_of_applyChange {context : String} {handle : Nat} {c : Change}
    (hversion : ∃ v, m.version handle = .ok v)
    (h : (applyChange context handle m c).failure = some e) : ∃ fault, e = .trace fault := by
  obtain ⟨v, hv⟩ := hversion
  unfold applyChange at h
  rw [hv] at h
  simp only at h
  split at h
  · exact ⟨_, (Option.some.inj h).symm⟩
  · cases h

/-- A version is there after operations have been appended. -/
theorem RuntimeGrown.exists_version {m' : Model} (hgrown : RuntimeGrown m m') {handle : Nat}
    {v : Version} (hv : m.versions[handle]? = some v) : ∃ v', m'.version handle = .ok v' := by
  obtain ⟨calls, hcalls⟩ := hgrown.versions handle
  rw [hv] at hcalls
  exact ⟨_, version_eq_ok_iff.mpr hcalls⟩

theorem exists_fault_of_applyIr {created : List (String × String)} (hm : Indexed created m)
    {b : IrBlock} (h : (m.applyIr b).failure = some e) : ∃ fault, e = .trace fault := by
  unfold applyIr at h
  split at h
  · exact ⟨_, (Option.some.inj h).symm⟩
  next v hv =>
    obtain ⟨handle, -, hat⟩ := functionVersion_eq_ok_iff.mp hv
    rw [← hm.coherent.handle_eq hat] at hat
    refine Progress.exists_fault_of_forAll (RuntimeGrown m) (fun m' c m'' hgrown hstep => ?_)
      (fun m' c e hgrown => exists_fault_of_applyChange (hgrown.exists_version hat)) (.refl m) h
    rw [← Progress.model_eq_of_result hstep]
    exact hgrown.trans (runtimeGrown_applyChange _ _ m' c)

theorem exists_fault_of_applyIrs {created : List (String × String)} (hm : Indexed created m)
    {blocks : List IrBlock} (h : (m.applyIrs blocks).result = .error e) :
    ∃ fault, e = .trace fault := by
  rw [Progress.result_eq_error_iff] at h
  refine Progress.exists_fault_of_forAll (Indexed created) (fun m b m' hm hstep => ?_)
    (fun m b e hm => exists_fault_of_applyIr hm) hm h
  rw [← Progress.model_eq_of_result hstep]
  exact hm.of_sameEntries (runtimeGrown_applyIr m b).sameEntries

end Model

/-! ### The three streams -/

/-- **A trace that has no model** is at fault, or has a long run of digits in its source stream
or in its IR stream. -/
theorem exists_of_buildModel_eq_error {code ir log : Text}
    (h : buildModel code ir log = .error e) :
    (∃ fault, e = .trace fault) ∨ e = Overrun.digits ∧ (code.HasLongRun ∨ ir.HasLongRun) := by
  unfold buildModel Model.buildNoted at h
  split at h
  next e' hsources =>
    cases h
    obtain hscan | ⟨blocks, -, happly⟩ := bind_eq_error_iff.mp hsources
    · exact (scanSources_eq_error hscan).imp_right fun hlong => ⟨hlong.1, .inl hlong.2⟩
    obtain happly | ⟨_, -, ⟨⟩⟩ := bind_eq_error_iff.mp happly
    exact .inl (Model.exists_fault_of_applySources happly)
  next built first hsources =>
    obtain ⟨blocks, -, hsources⟩ := bind_eq_ok_iff.mp hsources
    obtain ⟨built', hbuilt, hpair⟩ := bind_eq_ok_iff.mp hsources
    cases hpair
    have hindexed := Model.Indexed.empty.applySources blocks
    rw [Progress.model_eq_of_result hbuilt] at hindexed
    split at h
    next e' hir =>
      cases h
      obtain hscan | ⟨blocks, -, happly⟩ := bind_eq_error_iff.mp hir
      · exact (scanIr_eq_error hscan).imp_right fun hlong => ⟨hlong.1, .inr hlong.2⟩
      obtain happly | ⟨_, -, ⟨⟩⟩ := bind_eq_error_iff.mp happly
      exact .inl (Model.exists_fault_of_applyIrs hindexed happly)
    · cases h

end InlineReport
