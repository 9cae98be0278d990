import InlineReport.Proofs.Model.Streams
import Mathlib.Algebra.Ring.Nat

/-!
# Where operations end up

The IR stream lists, for a compiled version, the operations left in its code; one that is in the
code of an inline copy says so by the second id of the copy. **A version has the operations that
are meant for it** (`Model.runtime_eq_callsFor`), in the order of the stream, and none of them is
lost or comes twice.

For this to be said of the finished model, what is meant for a version (`Model.Receives`) must not
depend on when it is looked up; it does not, since operations and refusals leave the entries of
versions alone. So one step is compared with the list of all changes so far
(`Model.Routed.applyChange`), and then the run.
-/

namespace InlineReport

/-- The changes of IR blocks in order, each with its block. -/
def changesOf (blocks : List IrBlock) : List (IrBlock × Change) :=
  blocks.flatMap fun b => b.changes.map (b, ·)

/-- The operation that a change leaves in the code. -/
def Change.call (c : Change) : RuntimeCall := ⟨c.offset, c.kind⟩

/-- The number of the copy that a change is in; without an inline id it is zero, which is the
version itself. -/
def Change.copyId (c : Change) : Nat := c.inlineId.getD 0

namespace Model

variable {m m' base : Model} {v w target : Version} {b : IrBlock} {c : Change}
  {created : List (String × String)} {done : List (IrBlock × Change)}

/-- **A change is meant for a version**: its block is of a compiled version `w`, and the version
is `w` itself or the copy of `w` with the number that the change has. -/
def Receives (m : Model) (v : Version) (b : IrBlock) (c : Change) : Prop :=
  ∃ w, m.functionVersion b.file b.name b.compileId = .ok w ∧ w.isInline = false ∧
    ((c.copyId = 0 ∧ v.handle = w.handle) ∨
      (c.copyId ≠ 0 ∧ v.owner = some (w.handle : Int) ∧ v.secondId = c.copyId))

instance (m : Model) (v : Version) (b : IrBlock) (c : Change) : Decidable (m.Receives v b c) :=
  match h : m.functionVersion b.file b.name b.compileId with
  | .ok w => decidable_of_iff (w.isInline = false ∧ ((c.copyId = 0 ∧ v.handle = w.handle) ∨
      (c.copyId ≠ 0 ∧ v.owner = some (w.handle : Int) ∧ v.secondId = c.copyId)))
      (by simp [Receives, h])
  | .error _ => isFalse (by simp [Receives, h])

/-- **The operations that are meant for a version**, in the order of their blocks. -/
def callsFor (m : Model) (v : Version) (changes : List (IrBlock × Change)) : List RuntimeCall :=
  (changes.filter fun x => m.Receives v x.1 x.2).map (·.2.call)

theorem callsFor_append (m : Model) (v : Version) (changes changes' : List (IrBlock × Change)) :
    m.callsFor v (changes ++ changes') = m.callsFor v changes ++ m.callsFor v changes' := by
  simp only [callsFor, List.filter_append, List.map_append]

theorem callsFor_singleton (m : Model) (v : Version) (b : IrBlock) (c : Change) :
    m.callsFor v [(b, c)] = if m.Receives v b c then [c.call] else [] := by
  by_cases h : m.Receives v b c <;> simp [callsFor, h]

/-! ### What is meant for a version -/

theorem Receives.of_sameEntries (h : m.Receives v b c) (hsame : SameEntries m m') {v' : Version}
    (hv : v'.entry = v.entry) : m'.Receives v' b c := by
  obtain ⟨w, hw, hcompiled, hmeant⟩ := h
  obtain ⟨w', hw', heq⟩ := hsame.exists_functionVersion hw
  obtain ⟨hhandle, howner, hid, -⟩ := Version.fields_of_entry hv
  obtain ⟨hhandle', howner', -, -⟩ := Version.fields_of_entry heq
  refine ⟨w', hw', ?_, ?_⟩
  · rwa [Version.isInline, howner']
  · rwa [hhandle, howner, hid, hhandle']

/-- **What is meant for a version** depends on entries only. -/
theorem callsFor_congr (hsame : SameEntries m m') {v' : Version} (hv : v'.entry = v.entry)
    (changes : List (IrBlock × Change)) : m'.callsFor v' changes = m.callsFor v changes := by
  have hreceives : ∀ b c, m'.Receives v' b c ↔ m.Receives v b c := fun b c =>
    ⟨fun h => h.of_sameEntries hsame.symm hv.symm, fun h => h.of_sameEntries hsame hv⟩
  simp only [callsFor, hreceives]

/-- A change is meant for the version that the lookups for it end at. -/
theorem Indexed.receives_iff (hm : Indexed created m)
    (hw : m.functionVersion b.file b.name b.compileId = .ok w)
    (htarget : m.copyOf w c.copyId = .ok target) (hv : v ∈ m.versions) :
    m.Receives v b c ↔ v.handle = target.handle := by
  obtain ⟨hmem, hcompiled⟩ := mem_compiled_iff.mp (hm.functionVersion_eq_ok_iff.mp hw).mem
  have hreceives : m.Receives v b c ↔ (c.copyId = 0 ∧ v.handle = w.handle) ∨
      (c.copyId ≠ 0 ∧ v.owner = some (w.handle : Int) ∧ v.secondId = c.copyId) := by
    constructor
    · rintro ⟨w', hw', -, hmeant⟩
      obtain rfl := Except.ok.inj (hw.symm.trans hw')
      exact hmeant
    · exact fun hmeant => ⟨w, hw, hcompiled, hmeant⟩
  rw [hreceives]
  by_cases hzero : c.copyId = 0
  · have hself : target = w := by
      rw [hzero] at htarget
      exact (Except.ok.inj htarget).symm
    simp [hzero, hself]
  · have hzero' : (c.copyId : Int) ≠ 0 := by omega
    have htarget' := (hm.coherent.copyOf_eq_ok_iff hmem hzero').mp htarget
    constructor
    · rintro (⟨h, -⟩ | ⟨-, howner, hid⟩)
      · exact absurd h hzero
      · have hcopy := (hm.coherent.copyOf_eq_ok_iff hmem hzero').mpr ⟨hv, howner, hid⟩
        rw [Except.ok.inj (hcopy.symm.trans htarget)]
    · intro hhandle
      have hat := hm.coherent.getElem?_handle hv
      rw [hhandle, hm.coherent.getElem?_handle htarget'.1] at hat
      obtain rfl := Option.some.inj hat
      exact Or.inr ⟨hzero, htarget'.2⟩

/-! ### One change -/

/-- **Changes have been routed**: since a base model, in which no version had an operation,
versions have got the operations of some changes that are meant for them, and no others. -/
structure Routed (base : Model) (done : List (IrBlock × Change)) (m : Model) : Prop where
  same : SameEntries base m
  runtime_eq : ∀ {h : Nat} {v}, m.versions[h]? = some v → v.runtime = base.callsFor v done
  perm : (m.versions.toList.flatMap (·.runtime)).Perm (done.map (·.2.call))

theorem exists_of_applyChange {context : String} {handle : Nat}
    (h : (applyChange context handle m c).result = .ok m') :
    ∃ w target, m.version handle = .ok w ∧ m.copyOf w c.copyId = .ok target ∧
      m' = m.modifyVersion target.handle fun v => { v with runtime := v.runtime ++ [c.call] } := by
  unfold applyChange at h
  split at h
  · exact absurd h (by simp [Progress.result])
  · next w hw =>
    split at h
    · exact absurd h (by simp [Progress.result])
    · next target htarget => exact ⟨w, target, hw, htarget, (Except.ok.inj h).symm⟩

/-- **One change** is added to the version that it is meant for. -/
theorem Routed.applyChange (h : Routed base done m) (hbase : Indexed created base)
    (hw : m.functionVersion b.file b.name b.compileId = .ok w) {context : String}
    (hstep : (applyChange context w.handle m c).result = .ok m') :
    Routed base (done ++ [(b, c)]) m' := by
  have hm : Indexed created m := hbase.of_sameEntries h.same
  obtain ⟨w', target, hw', htarget, rfl⟩ := exists_of_applyChange hstep
  obtain ⟨hmem, -⟩ := mem_compiled_iff.mp (hm.functionVersion_eq_ok_iff.mp hw).mem
  obtain rfl := Except.ok.inj ((hm.coherent.version_handle hmem).symm.trans hw')
  have htargetAt : m.versions[target.handle]? = some target := by
    by_cases hzero : c.copyId = 0
    · rw [hzero] at htarget
      obtain rfl := Except.ok.inj htarget
      exact hm.coherent.getElem?_handle hmem
    · have hzero' : (c.copyId : Int) ≠ 0 := by omega
      exact hm.coherent.getElem?_handle ((hm.coherent.copyOf_eq_ok_iff hmem hzero').mp htarget).1
  refine ⟨h.same.trans (.modifyVersion m _ fun _ => rfl), fun {k v} hv => ?_, ?_⟩
  · rw [getElem?_modifyVersion] at hv
    -- whether the change is meant for a version is the same in the base model
    have hmeant : ∀ {v}, m.versions[k]? = some v →
        base.callsFor v [(b, c)] = if k = target.handle then [c.call] else [] := fun {v} hv => by
      rw [← callsFor_congr h.same rfl, callsFor_singleton,
        ← hm.coherent.handle_eq hv]
      simp only [hm.receives_iff hw htarget (mem_versions_iff.mpr ⟨k, hv⟩)]
    rw [callsFor_append]
    split at hv
    · next hk =>
      obtain ⟨v₀, hv₀, rfl⟩ := Option.map_eq_some_iff.mp hv
      have hruntime := h.runtime_eq hv₀
      have hnew := hmeant hv₀
      rw [if_pos hk] at hnew
      rw [← hnew, hruntime]
      rfl
    · next hk =>
      have hnew := hmeant hv
      rw [if_neg hk] at hnew
      rw [h.runtime_eq hv, hnew, List.append_nil]
  · have hgrown : ((m.modifyVersion target.handle fun v =>
        { v with runtime := v.runtime ++ [c.call] }).versions.toList.flatMap (·.runtime)).Perm
          (c.call :: m.versions.toList.flatMap (·.runtime)) := by
      rw [Model.modifyVersion, Array.toList_modify]
      refine flatMap_modify_perm (a := target) ?_ rfl
      rwa [Array.getElem?_toList]
    rw [List.map_append, List.map_singleton]
    exact (hgrown.trans (h.perm.cons c.call)).trans (List.perm_append_singleton _ _).symm

/-! ### IR blocks -/

/-- **The changes of a block** are added one after the other. The version that the block is of is
looked up once, and stays where it is. -/
theorem Routed.applyIr (h : Routed base done m) (hbase : Indexed created base)
    (hstep : (m.applyIr b).result = .ok m') : Routed base (done ++ b.changes.map (b, ·)) m' := by
  unfold Model.applyIr at hstep
  split at hstep
  · exact absurd hstep (by simp [Progress.result])
  · next w hw =>
    have hrun := Progress.forAll_items_induction
      (Model.applyChange (irContext b) w.handle)
      (fun changes m' => Routed base (done ++ changes.map (b, ·)) m' ∧
        ∃ w', m'.functionVersion b.file b.name b.compileId = .ok w' ∧ w'.handle = w.handle)
      ?_ ⟨by rwa [List.map_nil, List.append_nil], w, hw, rfl⟩ hstep
    · exact hrun.1
    · rintro changes m₁ c m₂ ⟨hrouted, w', hw', hhandle⟩ hchange
      have hgrown := (runtimeGrown_applyChange (irContext b) w.handle m₁ c).sameEntries
      rw [Progress.model_eq_of_result hchange] at hgrown
      obtain ⟨w'', hw'', heq⟩ := hgrown.exists_functionVersion hw'
      refine ⟨?_, w'', hw'', (Version.fields_of_entry heq).1.trans hhandle⟩
      rw [← hhandle] at hchange
      rw [List.map_append, ← List.append_assoc]
      exact hrouted.applyChange hbase hw' hchange

/-- **All changes** are added where they belong. -/
theorem Routed.applyIrs (h : Routed base [] base) (hbase : Indexed created base)
    {blocks : List IrBlock} (hstep : (base.applyIrs blocks).result = .ok m) :
    Routed base (changesOf blocks) m := by
  refine Progress.forAll_items_induction Model.applyIr
    (fun blocks m => Routed base (changesOf blocks) m) ?_ h hstep
  intro blocks m b m' hm hb
  have hchanges : changesOf (blocks ++ [b]) = changesOf blocks ++ b.changes.map (b, ·) := by
    rw [changesOf, List.flatMap_append, List.flatMap_singleton, changesOf]
  rw [hchanges]
  exact hm.applyIr hbase hb

/-! ### Before the IR stream -/

/-- No version has an operation yet. -/
def Silent (m : Model) : Prop := ∀ (h : Nat) v, m.versions[h]? = some v → v.runtime = []

theorem Silent.modifyVersion (hm : Silent m) (handle : Nat) {f : Version → Version}
    (hf : ∀ v, (f v).runtime = v.runtime) : Silent (m.modifyVersion handle f) := by
  intro h v hv
  rw [getElem?_modifyVersion] at hv
  split at hv
  · obtain ⟨v₀, hv₀, rfl⟩ := Option.map_eq_some_iff.mp hv
    rw [hf, hm h v₀ hv₀]
  · exact hm h v hv

theorem Silent.addVersion (hm : Silent m) {content : Nat → Version}
    (hnew : (content m.nextHandle).runtime = []) : Silent (m.addVersion content) := by
  intro h v hv
  rw [getElem?_addVersion] at hv
  split at hv
  · rw [← Option.some.inj hv, hnew]
  · exact hm h v hv

/-- **Source blocks** leave no operations. -/
theorem Silent.applySource (hm : Silent m) (hindexed : Indexed created m) (b : SourceBlock) :
    Silent (m.applySource b).model := by
  unfold Model.applySource
  split
  · have hcopy : ∀ owner grown, m.registerCopy owner b.name b.secondId b.code = .ok grown →
        Silent (grown.noteDeopts owner.handle b.deopts) := fun owner grown hgrown => by
      obtain ⟨-, rfl⟩ := registerCopy_eq_ok_iff.mp hgrown
      refine ((hm.addVersion ?_).modifyVersion owner.handle ?_).modifyVersion owner.handle ?_
      · rfl
      · exact fun _ => rfl
      · exact fun _ => rfl
    refine (inlineStep_applyInline hindexed.coherent).model_induction hm
      (fun owner grown _ hgrown => hcopy owner grown hgrown) ?_
    intro owner grown parent offset _ hgrown _
    refine ((hcopy owner grown hgrown).modifyVersion m.nextHandle ?_).modifyVersion parent ?_
    · exact fun _ => rfl
    · exact fun _ => rfl
  · intro h v hv
    have hadd : Silent (m.addVersion fun _ => m.newCompiled b) := hm.addVersion rfl
    exact hadd h v (versions_applyCompiled m b ▸ hv)

/-- A model that source blocks have made is where routing starts. -/
theorem routed_of_applySources {sources : List SourceBlock}
    (h : (Model.empty.applySources sources).result = .ok m) :
    (∃ created, Indexed created m) ∧ Routed m [] m := by
  obtain ⟨built, hrun, rfl⟩ := exists_of_applySources h
  have hbuilt : Silent built ∧ ∃ created, Indexed created built := by
    rw [← Progress.model_eq_of_result hrun]
    refine Progress.model_forAll Model.applySource
      (fun m => Silent m ∧ ∃ created, Indexed created m) ?_ ⟨?_, [], .empty⟩
    · rintro m b ⟨hsilent, created, hindexed⟩
      exact ⟨hsilent.applySource hindexed b, _, hindexed.applySource b⟩
    · intro h v hv
      exact absurd hv (by simp [Model.empty])
  obtain ⟨hsilent, created, hindexed⟩ := hbuilt
  have hsilent' : Silent built.markDeopted := fun h v hv =>
    hsilent h v (versions_markDeopted built ▸ hv)
  have hindexed' := hindexed.of_sameEntries (sameEntries_markDeopted built)
  refine ⟨⟨created, hindexed'⟩, .refl _, hsilent' _ _, ?_⟩
  have hnone : built.markDeopted.versions.toList.flatMap (·.runtime) = [] := by
    refine List.flatMap_eq_nil_iff.mpr fun v hv => ?_
    obtain ⟨h, hv⟩ := mem_versions_iff.mp (Array.mem_toList_iff.mp hv)
    exact hsilent' h v hv
  rw [hnone]
  exact .nil

/-- **The operations of a model**: each version has just those that are meant for it, in the
order of the IR stream, and together they are as many as the stream has. For whatever model and
blocks, applying IR blocks appends operations and changes nothing else, also where it stops. -/
theorem runtime_eq_callsFor :
    (∀ code ir log m, buildModel code ir log = .ok m → ∃ blocks, scanIr ir = .ok blocks ∧
      (∀ v ∈ m.versions, v.runtime = m.callsFor v (changesOf blocks)) ∧
      (m.versions.toList.map (·.runtime.length)).sum = (blocks.map (·.changes.length)).sum) ∧
    ∀ m blocks, RuntimeGrown m (m.applyIrs blocks).model := by
  refine ⟨fun code ir log m h => ?_, runtimeGrown_applyIrs⟩
  obtain ⟨sources, built, blocks, routed, -, hbuilt, hscan, hrouted, rfl⟩ := exists_of_buildModel h
  obtain ⟨⟨created, hindexed⟩, hstart⟩ := routed_of_applySources hbuilt
  have hend := hstart.applyIrs hindexed hrouted
  have hversions := versions_applyRefusals routed (scanRefusals log)
  have hsame := hend.same.trans (sameEntries_applyRefusals routed (scanRefusals log))
  refine ⟨blocks, hscan, fun v hv => ?_, ?_⟩
  · obtain ⟨h, hv⟩ := mem_versions_iff.mp hv
    obtain ⟨v₀, hv₀, hentry⟩ := exists_of_entries hsame.versions.symm hv
    rw [callsFor_congr hsame hentry.symm, hend.runtime_eq (hversions ▸ hv)]
    exact callsFor_congr (.refl built) hentry.symm _
  · have hlength := hend.perm.length_eq
    rw [List.length_flatMap, List.length_map, changesOf, List.length_flatMap] at hlength
    simp only [List.length_map] at hlength
    rw [hversions, hlength]

/-- A source stream with a function `f` and a copy of `g` in it. -/
def twoSources : Text :=
  ("--- FUNCTION SOURCE (a:f) id\x7b0,0\x7d ---\nx\n--- END ---" ++
    "--- FUNCTION SOURCE (a:g) id\x7b0,1\x7d ---\ny\n--- END ---").toList

/-- An IR stream with an operation in `f` and one in its copy of `g`. -/
def twoOperations : Text :=
  ("begin_compilation\nname \"a:f\" method \"f:0\"\n" ++
    " 0 0 v1 Call changes[*] pos:1 \n 0 0 v2 Store changes[*] pos:1_5 ").toList

theorem runtime_eq_callsFor_twoOperations :
    ∃ m, buildModel twoSources twoOperations [] = .ok m ∧
      m.versions.toList.map (·.runtime) = [[⟨1, "Call"⟩], [⟨5, "Store"⟩]] ∧
      ∃ blocks, scanIr twoOperations = .ok blocks ∧
        (∀ v ∈ m.versions, v.runtime = m.callsFor v (changesOf blocks)) ∧
        (m.versions.toList.map (·.runtime.length)).sum = (blocks.map (·.changes.length)).sum := by
  have hbuilt : (buildModel twoSources twoOperations []).toOption.map
      (fun m => m.versions.toList.map (·.runtime)) = some [[⟨1, "Call"⟩], [⟨5, "Store"⟩]] := by
    decide +kernel
  obtain ⟨m, hm, hruntime⟩ := Option.map_eq_some_iff.mp hbuilt
  have hm := toOption_eq_some_iff.mp hm
  exact ⟨m, hm, hruntime, runtime_eq_callsFor.1 _ _ _ m hm⟩

end Model

end InlineReport
