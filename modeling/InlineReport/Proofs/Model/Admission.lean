import InlineReport.Proofs.Model.Placing
import InlineReport.Proofs.Trace.History

/-!
# Which source blocks are accepted

Whether a source block is accepted depends on the blocks before it, but the work on it only looks
at the tables of the model, in which a compile id that is used again hides what it meant before.
**What the tables know of the blocks before** (`Model.Recorded`) is just what counts: for each
file and compile id, the block that compiled it last and the numbers of the copies that have come
since. So a list of source blocks is accepted if each block of a copy is admissible
(`AllAdmissible`), and otherwise the error is the fault of the first one that is not
(`Model.applySources_verdict`).
-/

namespace InlineReport

namespace Model

variable {m m' grown : Model} {owner v : Version} {created : List (String × String)}
  {before : List SourceBlock} {b : SourceBlock} {path : String}

/-! ### The block of a compiled version -/

theorem isSome_get?_applyCompiled_iff :
    ((m.applyCompiled b).files.get? path).isSome ↔ path = b.file ∨ (m.files.get? path).isSome := by
  have hversion := isSome_get?_registerVersion ((m.registerFile b.file).registerFunction b.file
    b.name) b.file b.name b.compileId b.code path
  rw [isSome_get?_registerFunction] at hversion
  rw [← isSome_get?_registerFile_iff, ← hversion]
  rfl

theorem handleInFile?_applyCompiled (m : Model) (b : SourceBlock) (path : String) (id : Int) :
    (m.applyCompiled b).handleInFile? path id =
      if path = b.file ∧ id = b.compileId then some m.nextHandle else m.handleInFile? path id := by
  have hfile : (((m.registerFile b.file).registerFunction b.file b.name).files.get?
      b.file).isSome := by
    rw [isSome_get?_registerFunction]
    exact isSome_get?_registerFile m b.file
  have hversion : (m.applyCompiled b).handleInFile? path id = _ :=
    handleInFile?_registerVersion hfile b.code
  rw [hversion, handleInFile?_registerFunction, handleInFile?_registerFile,
    nextHandle_registerFunction]
  rfl

/-- **A compile id after a compilation**: it means the new version, if it is the one that was
compiled. -/
theorem Indexed.fileVersion_applyCompiled (hm : Indexed created m) {id : Nat} :
    (m.applyCompiled b).fileVersion path id = .ok v ↔
      if b.IsOf path id then v = m.newCompiled b else m.fileVersion path id = .ok v := by
  simp only [Model.fileVersion_eq_ok_iff, handleInFile?_applyCompiled, versions_applyCompiled,
    getElem?_addVersion, SourceBlock.IsOf]
  by_cases hkey : b.file = path ∧ b.compileId = id
  · have hkey' : path = b.file ∧ (id : Int) = b.compileId := ⟨hkey.1.symm, by omega⟩
    rw [if_pos hkey]
    simp only [if_pos hkey', Option.some.injEq, exists_eq_left', if_true]
    exact eq_comm
  · have hkey' : ¬ (path = b.file ∧ (id : Int) = b.compileId) := fun h => hkey ⟨h.1.symm, by omega⟩
    rw [if_neg hkey]
    simp only [if_neg hkey']
    refine exists_congr fun h => and_congr_right fun hh => ?_
    rw [if_neg (Nat.ne_of_lt (hm.lt_of_handleInFile? hh))]

/-! ### The block of a copy -/

/-- **A compile id after a copy** means the version that it meant before, which knows the copy if
it owns it. -/
theorem Indexed.fileVersion_applyInline (hm : Indexed created m)
    (h : (m.applyInline b).result = .ok m') {id : Nat} :
    (∀ v', m'.fileVersion path id = .ok v' → ∃ v, m.fileVersion path id = .ok v) ∧
      ∀ v, m.fileVersion path id = .ok v → ∃ v', m'.fileVersion path id = .ok v' ∧
        v'.name = v.name ∧ v'.copies =
          if b.IsOf path id then v.copies.insert b.secondId m.nextHandle else v.copies := by
  obtain ⟨owner, grown, howner, hgrown, hsame⟩ := exists_of_applyInline hm.coherent h
  have hat := hm.coherent.getElem?_of_fileVersion howner
  have hread := getElem?_registerCopy hat hgrown
  have hfiles : grown.handleInFile? path id = m.handleInFile? path id := by
    obtain ⟨-, rfl⟩ := registerCopy_eq_ok_iff.mp hgrown
    rfl
  have hhandle : m'.handleInFile? path id = m.handleInFile? path id :=
    (hsame.inFile path id).trans hfiles
  have howns := (hm.fileVersion_eq_ok_iff.mp howner).holds
  simp only [Model.fileVersion_eq_ok_iff, hhandle]
  constructor
  · rintro v' ⟨k, hk, -⟩
    rw [hm.inFile] at hk
    obtain ⟨v, hv, -⟩ := mem_compiledHandles_iff.mp (List.mem_of_getLast? hk)
    exact ⟨v, k, by rw [hm.inFile, hk], hv⟩
  · rintro v ⟨k, hk, hv⟩
    have hlt := lt_nextHandle hv
    have hholds := (hm.fileVersion_eq_ok_iff.mp
      (Model.fileVersion_eq_ok_iff.mpr ⟨k, hk, hv⟩)).holds
    -- one version cannot have two keys, so only the block's own key means the owner
    have hkey : k = owner.handle ↔ b.IsOf path id := by
      constructor
      · rintro rfl
        obtain rfl := Option.some.inj (hv.symm.trans hat)
        refine ⟨howns.1.symm.trans hholds.1, ?_⟩
        have := Option.some.inj (howns.2.symm.trans hholds.2)
        omega
      · rintro ⟨rfl, rfl⟩
        obtain ⟨k', hk', howner'⟩ := Model.fileVersion_eq_ok_iff.mp howner
        obtain rfl := Option.some.inj (hk.symm.trans hk')
        exact (hm.coherent.handle_eq howner').symm
    have hgrownAt : ∃ w, grown.versions[k]? = some w ∧ w.name = v.name ∧ w.copies =
        if b.IsOf path id then v.copies.insert b.secondId m.nextHandle else v.copies := by
      rw [hread, if_neg (Nat.ne_of_lt hlt)]
      by_cases hk : k = owner.handle
      · obtain rfl := Option.some.inj ((hk ▸ hv).symm.trans hat)
        exact ⟨_, if_pos hk, rfl, (if_pos (hkey.mp hk)).symm⟩
      · exact ⟨v, by rw [if_neg hk, hv], rfl, (if_neg fun h => hk (hkey.mpr h)).symm⟩
    obtain ⟨w, hw, hname, hcopies⟩ := hgrownAt
    obtain ⟨v', hv', hentry⟩ := exists_of_entries hsame.versions hw
    refine ⟨v', ⟨k, hk, hv'⟩, ?_, ?_⟩
    · exact (congrArg Version.name hentry).trans hname
    · exact (Version.fields_of_entry hentry).2.2.2.trans hcopies

/-! ### What the tables know -/

/-- **What the tables know of the blocks before**: which files have something compiled in them,
and for a compile id in a file the block that compiled it last, with the copies since then. -/
structure Recorded (before : List SourceBlock) (m : Model) : Prop where
  fileKnown : ∀ path, (m.files.get? path).isSome ↔ FileKnown path before
  exists_of_fileVersion : ∀ {path} {id : Nat} {v}, m.fileVersion path id = .ok v →
    ∃ compilation since, LastCompiled path id before compilation since
  exists_fileVersion : ∀ {path} {id : Nat} {compilation since},
    LastCompiled path id before compilation since → ∃ v, m.fileVersion path id = .ok v ∧
      v.name = compilation.name ∧
      ∀ n : Nat, (v.copies.get? n).isSome ↔ HasCopy path id since n

namespace Recorded

theorem empty : Recorded [] Model.empty where
  fileKnown _ := iff_of_false (by simp [Model.empty]) (by simp [FileKnown])
  exists_of_fileVersion hv := by
    obtain ⟨h, hh, -⟩ := Model.fileVersion_eq_ok_iff.mp hv
    exact absurd hh (by simp [handleInFile?, Model.empty])
  exists_fileVersion h := absurd h not_lastCompiled_nil

/-- **A compilation** hides what its id meant before. -/
theorem applyCompiled (hm : Recorded before m) (hindexed : Indexed created m)
    (hb : b.isInline = false) : Recorded (before ++ [b]) (m.applyCompiled b) where
  fileKnown path := by
    rw [isSome_get?_applyCompiled_iff, hm.fileKnown]
    simp only [FileKnown, List.mem_append, List.mem_singleton, or_and_right, exists_or,
      exists_eq_left, hb, true_and]
    rw [or_comm, eq_comm]
  exists_of_fileVersion {path id v} hv := by
    rw [hindexed.fileVersion_applyCompiled] at hv
    split at hv
    · next hkey => exact ⟨b, [], lastCompiled_append_iff.mpr (Or.inl ⟨hb, hkey, rfl, rfl⟩)⟩
    · next hkey =>
      obtain ⟨compilation, since, hlast⟩ := hm.exists_of_fileVersion hv
      exact ⟨compilation, since ++ [b], lastCompiled_append_iff.mpr
        (Or.inr ⟨fun h => absurd h hkey, since, hlast, rfl⟩)⟩
  exists_fileVersion {path id compilation since} hlast := by
    simp only [hindexed.fileVersion_applyCompiled]
    rcases lastCompiled_append_iff.mp hlast with
      ⟨-, hkey, rfl, rfl⟩ | ⟨hkey, since', hlast', rfl⟩
    -- the version that has just been compiled has no copies yet
    · refine ⟨m.newCompiled compilation, (if_pos hkey).mpr rfl, rfl, fun n => ?_⟩
      exact iff_of_false (by simp [newCompiled]) (by simp [HasCopy])
    · have hkey' : ¬ b.IsOf path id := fun h => absurd (hkey h) (by simp [hb])
      obtain ⟨v, hv, hname, hcopies⟩ := hm.exists_fileVersion hlast'
      refine ⟨v, (if_neg hkey').mpr hv, hname, fun n => ?_⟩
      rw [hcopies, hasCopy_append_iff]
      simp [hkey']

/-- **A copy** is known to its version from then on. -/
theorem applyInline (hm : Recorded before m) (hindexed : Indexed created m)
    (hb : b.isInline = true) (h : (m.applyInline b).result = .ok m') :
    Recorded (before ++ [b]) m' where
  fileKnown path := by
    have hfiles := (files_homes_applyInline m b).1
    rw [Progress.model_eq_of_result h] at hfiles
    rw [hfiles, hm.fileKnown]
    simp [FileKnown, or_and_right, exists_or, hb]
  exists_of_fileVersion hv := by
    obtain ⟨v, hv⟩ := (hindexed.fileVersion_applyInline h).1 _ hv
    obtain ⟨compilation, since, hlast⟩ := hm.exists_of_fileVersion hv
    exact ⟨compilation, since ++ [b], lastCompiled_append_iff.mpr
      (Or.inr ⟨fun _ => hb, since, hlast, rfl⟩)⟩
  exists_fileVersion {path id compilation since} hlast := by
    rcases lastCompiled_append_iff.mp hlast with ⟨hcompiled, -⟩ | ⟨-, since', hlast', rfl⟩
    · exact absurd hcompiled (by simp [hb])
    obtain ⟨v, hv, hname, hcopies⟩ := hm.exists_fileVersion hlast'
    obtain ⟨v', hv', hname', hcopies'⟩ := (hindexed.fileVersion_applyInline h).2 v hv
    refine ⟨v', hv', hname'.trans hname, fun n => ?_⟩
    rw [hcopies', hasCopy_append_iff, ← hcopies]
    split
    · next hkey =>
      rw [Registry.get?_insert]
      split
      · next hn => simp [hb, hkey, Int.ofNat_inj.mp hn]
      · next hn => simp [show b.secondId ≠ n from fun h => hn (by rw [h])]
    · next hkey => simp [hkey]

/-- What the version of a compile id is, as the blocks before tell it. -/
theorem exists_lastCompiled (hm : Recorded before m) {path : String} {id : Nat} {v : Version}
    (hv : m.fileVersion path id = .ok v) : ∃ compilation since,
      LastCompiled path id before compilation since ∧ v.name = compilation.name ∧
        ∀ n : Nat, (v.copies.get? n).isSome ↔ HasCopy path id since n := by
  obtain ⟨compilation, since, hlast⟩ := hm.exists_of_fileVersion hv
  obtain ⟨v', hv', hknown⟩ := hm.exists_fileVersion hlast
  obtain rfl := Except.ok.inj (hv.symm.trans hv')
  exact ⟨compilation, since, hlast, hknown⟩

/-- A copy that is registered has a number that is free. -/
theorem exists_free (hm : Recorded before m) (howner : m.fileVersion b.file b.compileId = .ok owner)
    (hgrown : m.registerCopy owner b.name b.secondId b.code = .ok grown) : ∃ compilation since,
      LastCompiled b.file b.compileId before compilation since ∧
        ¬ HasCopy b.file b.compileId since b.secondId ∧ owner.name = compilation.name ∧
        ∀ n : Nat, (owner.copies.get? n).isSome ↔ HasCopy b.file b.compileId since n := by
  obtain ⟨compilation, since, hlast, hname, hcopies⟩ := hm.exists_lastCompiled howner
  refine ⟨compilation, since, hlast, ?_, hname, hcopies⟩
  rw [← hcopies, (registerCopy_eq_ok_iff.mp hgrown).1]
  exact Bool.false_ne_true

/-- **The verdict on the block of a copy**: either it is admissible and accepted, or it has a
fault, which is the error. -/
theorem verdict (hm : Recorded before m) (hindexed : Indexed created m)
    (hb : b.isInline = true) : (Admissible before b ∧ (m.applyInline b).failure = none) ∨
      ∃ error, Fault before b error ∧ (m.applyInline b).failure = some (.trace error) := by
  have hstep := inlineStep_applyInline (b := b) hindexed.coherent
  generalize m.applyInline b = p at hstep ⊢
  cases hstep with
  | unowned howner =>
    refine Or.inr ⟨_, .unowned fun compilation since hlast => ?_, ?_⟩
    · obtain ⟨v, hv, -⟩ := hm.exists_fileVersion hlast
      exact absurd (howner.symm.trans hv) (by simp)
    · rw [Model.fileVersion_eq_error fun v hv => by simp [howner] at hv] at howner
      rw [← Except.error.inj howner]
      simp only [unresolved, missingVersion, hm.fileKnown]
      rfl
  | repeated howner hused =>
    obtain ⟨compilation, since, hlast, -, hcopies⟩ := hm.exists_lastCompiled howner
    refine Or.inr ⟨_, .repeated hlast ((hcopies _).mp hused), ?_⟩
    rw [(hindexed.fileVersion_eq_ok_iff.mp howner).holds.2, Option.getD_some]
  | unplaced howner hgrown hplace =>
    obtain ⟨compilation, since, hlast, hfree, -, -⟩ := hm.exists_free howner hgrown
    refine Or.inl ⟨⟨compilation, since, hlast, hfree, fun place h => ?_⟩, rfl⟩
    exact absurd (hplace.symm.trans h) (by simp)
  | nowhere howner hgrown hplace hzero hself hparent =>
    obtain ⟨compilation, since, hlast, hfree, hname, hcopies⟩ := hm.exists_free howner hgrown
    refine Or.inr ⟨_, .nowhere hlast hfree hplace (fun hknown => ?_) hself, ?_⟩
    · rcases hknown _ hplace with h | h
      · exact hzero h
      · rw [← hcopies, hparent] at h
        exact Bool.false_ne_true h
    · rw [hname, (hindexed.fileVersion_eq_ok_iff.mp howner).holds.2]
      rfl
  | inItself howner hgrown hplace hself =>
    obtain ⟨compilation, since, hlast, hfree, -, -⟩ := hm.exists_free howner hgrown
    refine Or.inr ⟨_, .inItself hlast hfree hplace (fun hknown => ?_) hself, rfl⟩
    rcases hknown _ hplace with h | h
    · exact absurd (hself.symm.trans h) (by simpa [SourceBlock.isInline] using hb)
    · exact hfree (hself ▸ h)
  | placed howner hgrown hplace hparent =>
    obtain ⟨compilation, since, hlast, hfree, -, hcopies⟩ := hm.exists_free howner hgrown
    refine Or.inl ⟨⟨compilation, since, hlast, hfree, fun place h => ?_⟩, rfl⟩
    obtain rfl := Option.some.inj (hplace.symm.trans h)
    refine hparent.imp (·.1) ?_
    rintro ⟨-, -, hget⟩
    rw [← hcopies, hget, Option.isSome_some]

end Recorded

/-! ### Lists of blocks -/

/-- **All blocks of copies in a list are admissible**, each with the blocks before it. -/
def AllAdmissible (blocks : List SourceBlock) : Prop :=
  ∀ before b after, blocks = before ++ b :: after → b.isInline = true → Admissible before b

/-- What holds of a model that blocks have made: it is in order, and knows the blocks. -/
theorem recorded_of_forAll {blocks : List SourceBlock}
    (h : (Progress.forAll applySource Model.empty blocks).result = .ok m) :
    Recorded blocks m ∧ InOrder m := by
  refine Progress.forAll_items_induction applySource
    (fun before m => Recorded before m ∧ InOrder m) ?_ ⟨.empty, .empty, [], .empty⟩ h
  rintro before m b m' ⟨hm, hplanted, created, hindexed⟩ hstep
  have hplanted' := hplanted.applySource hindexed b
  have hindexed' := hindexed.applySource b
  rw [Progress.model_eq_of_result hstep] at hplanted' hindexed'
  refine ⟨?_, hplanted', _, hindexed'⟩
  unfold Model.applySource at hstep
  split at hstep
  · next hb => exact hm.applyInline hindexed hb hstep
  · next hb =>
    obtain rfl := Except.ok.inj hstep
    exact hm.applyCompiled hindexed (by simpa using hb)

/-- **The step at a block** behind blocks that have been accepted: it fails if the block is that
of a copy and has a fault, which is then the error. -/
theorem failure_applySource_eq_some_iff
    (h : (Progress.forAll applySource Model.empty before).result = .ok m) {e : Failure} :
    (m.applySource b).failure = some e ↔
      b.isInline = true ∧ ∃ error, Fault before b error ∧ e = .trace error := by
  obtain ⟨hrecorded, -, created, hindexed⟩ := recorded_of_forAll h
  by_cases hb : b.isInline = true
  · rw [applySource, if_pos hb]
    -- what is admissible has no fault, and a fault is the only one
    rcases hrecorded.verdict hindexed hb with ⟨hadmissible, hnone⟩ | ⟨error, hfault, hsome⟩
    · rw [hnone]
      refine iff_of_false (by simp) ?_
      rintro ⟨-, error, hfault, -⟩
      exact hadmissible.not_fault hfault
    · rw [hsome, Option.some.injEq]
      constructor
      · rintro rfl
        exact ⟨hb, error, hfault, rfl⟩
      · rintro ⟨-, error', hfault', rfl⟩
        rw [hfault.unique hfault']
  · rw [applySource, if_neg hb]
    exact iff_of_false (by simp) fun h => hb h.1

/-- **Acceptance**: a list of blocks is accepted if all blocks of copies are admissible. -/
theorem forAll_eq_ok_iff {blocks : List SourceBlock} :
    (∃ m, (Progress.forAll applySource Model.empty blocks).result = .ok m) ↔
      AllAdmissible blocks := by
  constructor
  · rintro ⟨m, h⟩ before b after rfl hb
    rw [Progress.forAll_append] at h
    obtain ⟨built, hbuilt, h⟩ := Progress.result_andThen_eq_ok_iff.mp h
    rw [Progress.forAll_cons] at h
    obtain ⟨next, hnext, -⟩ := Progress.result_andThen_eq_ok_iff.mp h
    obtain ⟨hrecorded, -, created, hindexed⟩ := recorded_of_forAll hbuilt
    have hnone := Progress.failure_eq_none_iff.mpr ⟨next, hnext⟩
    rw [applySource, if_pos hb] at hnone
    rcases hrecorded.verdict hindexed hb with ⟨hadmissible, -⟩ | ⟨error, -, hsome⟩
    · exact hadmissible
    · exact absurd (hnone.symm.trans hsome) (by simp)
  · intro hall
    rw [← Progress.failure_eq_none_iff]
    refine Option.eq_none_iff_forall_ne_some.mpr fun e he => ?_
    obtain ⟨before, b, after, built, rfl, hbuilt, hfail⟩ :=
      Progress.failure_forAll_eq_some_iff.mp he
    obtain ⟨hb, error, hfault, -⟩ := (failure_applySource_eq_some_iff hbuilt).mp hfail
    exact (hall before b after rfl hb).not_fault hfault

/-- **Which lists of source blocks are accepted**, and what the error is otherwise: a list is
accepted if every block of a copy is admissible, given the blocks before it; and if not, the
error is the fault of the first block that is not. -/
theorem applySources_verdict (blocks : List SourceBlock) :
    ((∃ m, (Model.empty.applySources blocks).result = .ok m) ↔ AllAdmissible blocks) ∧
    ∀ e, (Model.empty.applySources blocks).result = .error e ↔
      ∃ before b after error, blocks = before ++ b :: after ∧ AllAdmissible before ∧
        b.isInline = true ∧ Fault before b error ∧ e = .trace error := by
  have hfailure := failure_applySources (m := Model.empty) ⟨.empty, [], .empty⟩ blocks
  refine ⟨?_, fun e => ?_⟩
  · rw [← Progress.failure_eq_none_iff, hfailure, Progress.failure_eq_none_iff, forAll_eq_ok_iff]
  · rw [Progress.result_eq_error_iff, hfailure, Progress.failure_forAll_eq_some_iff]
    constructor
    · rintro ⟨before, b, after, built, rfl, hbuilt, hfail⟩
      obtain ⟨hb, error, hfault, rfl⟩ := (failure_applySource_eq_some_iff hbuilt).mp hfail
      exact ⟨before, b, after, error, rfl, forAll_eq_ok_iff.mp ⟨built, hbuilt⟩, hb, hfault, rfl⟩
    · rintro ⟨before, b, after, error, rfl, hall, hb, hfault, rfl⟩
      obtain ⟨built, hbuilt⟩ := forAll_eq_ok_iff.mpr hall
      exact ⟨before, b, after, built, rfl, hbuilt,
        (failure_applySource_eq_some_iff hbuilt).mpr ⟨hb, error, hfault, rfl⟩⟩

/-- The numbers of copies may be used again when their version is compiled again, but a copy
cannot be placed in itself. -/
theorem applySources_verdict_recompiled :
    AllAdmissible (nestedCopies ++ nestedCopies) ∧
    ∃ before b after error, nestedCopies ++ [selfPlaced] = before ++ b :: after ∧
      AllAdmissible before ∧ b.isInline = true ∧ Fault before b error ∧
      Failure.trace (.inlineCycle s!"{inlineContext selfPlaced} is placed inside itself") =
        .trace error :=
  ⟨(applySources_verdict _).1.mp ⟨_, by rfl⟩, ((applySources_verdict _).2 _).mp (by rfl)⟩

end Model

end InlineReport
