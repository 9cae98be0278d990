import InlineReport.Proofs.Model.Ownership
import InlineReport.Proofs.Trace.History

/-!
# Where the deoptimisations of blocks are noted

Every source block adds one version, so that the versions of a model can be told by their places
in the list of blocks. The deoptimisations of a block are noted with the code that runs: those of
a compiled version with this version, those of a copy with the version that owns it, which is the
last one that has been compiled under its compile id in its file.

Seen from a compiled version, these are the blocks of copies behind its own, up to where its
compile id is compiled again (`SourceBlock.owned`). So **what is noted with a version** can be
read off the list of blocks (`Model.deopts_of_applySources`), and nothing is noted twice or lost.
-/

namespace InlineReport

/-! ### What a version owns -/

namespace SourceBlock

/-- **The blocks of the copies that a compiled version owns**, given the blocks behind its own:
those of its compile id and file, up to the one that compiles the id in the file again. -/
def owned (b : SourceBlock) (since : List SourceBlock) : List SourceBlock :=
  (since.takeWhile fun c => ¬ (c.isInline = false ∧ c.IsOf b.file b.compileId)).filter fun c =>
    c.IsOf b.file b.compileId

/-- **What is noted** with the version that a block adds, given the blocks behind it. -/
def noted (b : SourceBlock) (since : List SourceBlock) : List String :=
  if b.isInline then [] else b.deopts ++ (b.owned since).flatMap (·.deopts)

/-- Whether a block that comes next is that of a copy that a compiled version owns. -/
def Owns (b : SourceBlock) (since : List SourceBlock) (c : SourceBlock) : Prop :=
  c.isInline = true ∧ c.IsOf b.file b.compileId ∧
    ∀ d ∈ since, d.IsOf b.file b.compileId → d.isInline = true

instance (b : SourceBlock) (since : List SourceBlock) (c : SourceBlock) :
    Decidable (b.Owns since c) :=
  inferInstanceAs (Decidable (_ ∧ _ ∧ ∀ d ∈ since, _))

variable {b c d : SourceBlock} {since : List SourceBlock}

/-- A block that does not compile the id again is owned if it is of this id. -/
theorem owned_cons (h : ¬ (d.isInline = false ∧ d.IsOf b.file b.compileId))
    (since : List SourceBlock) : b.owned (d :: since) =
      (if d.IsOf b.file b.compileId then [d] else []) ++ b.owned since := by
  rw [owned, List.takeWhile_cons, if_pos (decide_eq_true h), List.filter_cons]
  by_cases hkey : d.IsOf b.file b.compileId
  · rw [if_pos (decide_eq_true hkey), if_pos hkey]
    rfl
  · rw [if_neg (by simpa using hkey), if_neg hkey]
    rfl

/-- **A further block** is owned if it is that of a copy, and the compile id still means the
version. -/
theorem owned_append (b : SourceBlock) (since : List SourceBlock) (c : SourceBlock) :
    b.owned (since ++ [c]) = b.owned since ++ if b.Owns since c then [c] else [] := by
  induction since with
  | nil =>
    by_cases hkey : c.IsOf b.file b.compileId
    · cases hc : c.isInline <;> simp [owned, Owns, hkey, hc]
    · simp [owned, Owns, hkey]
  | cons d since ih =>
    by_cases hd : d.isInline = false ∧ d.IsOf b.file b.compileId
    · -- nothing behind a further compilation counts
      have hnot : ¬ b.Owns (d :: since) c := fun h =>
        absurd (h.2.2 d List.mem_cons_self hd.2) (by simp [hd.1])
      simp [owned, hd, hnot]
    · have hlast : d.IsOf b.file b.compileId → d.isInline = true := fun hkey =>
        (Bool.eq_false_or_eq_true _).resolve_right fun h => hd ⟨h, hkey⟩
      have hiff : b.Owns (d :: since) c ↔ b.Owns since c := by
        simp only [Owns, List.forall_mem_cons, and_iff_right hlast]
      simp only [hiff, List.cons_append, owned_cons hd, ih, List.append_assoc]

theorem noted_of_inline (hb : b.isInline = true) (since : List SourceBlock) : b.noted since = [] :=
  if_pos hb

theorem noted_append_of_owns (hb : b.isInline = false) (h : b.Owns since c) :
    b.noted (since ++ [c]) = b.noted since ++ c.deopts := by
  have hb' : ¬ b.isInline = true := by simp [hb]
  rw [noted, if_neg hb', noted, if_neg hb', owned_append, if_pos h, List.flatMap_append,
    List.flatMap_singleton, List.append_assoc]

theorem noted_append_of_not (h : ¬ b.Owns since c) : b.noted (since ++ [c]) = b.noted since := by
  rw [noted, noted, owned_append, if_neg h, List.append_nil]

end SourceBlock

/-! ### Versions and blocks -/

/-- A version without its place. -/
def Version.unplaced (v : Version) : Version := { v with offset := 0, inlines := [] }

/-- **The version that a block adds**: what the block says of it. A copy has no compile id. -/
structure Version.IsFrom (v : Version) (b : SourceBlock) : Prop where
  file : v.file = b.file
  name : v.name = b.name
  code : v.code = b.code
  isInline : v.isInline = b.isInline
  secondId : v.secondId = b.secondId
  compileId : v.compileId = if b.isInline then none else some (b.compileId : Int)

section Versions

variable {v w : Version} {b : SourceBlock}

theorem Version.fields_of_unplaced (h : v.unplaced = w.unplaced) :
    v.file = w.file ∧ v.name = w.name ∧ v.code = w.code ∧ v.owner = w.owner ∧
      v.secondId = w.secondId ∧ v.compileId = w.compileId ∧ v.deopts = w.deopts := by
  simp only [unplaced, mk.injEq] at h
  simp only [h, and_self]

theorem Version.IsFrom.of_unplaced (hw : w.IsFrom b) (h : v.unplaced = w.unplaced) :
    v.IsFrom b := by
  obtain ⟨hfile, hname, hcode, howner, hsecond, hcompile, -⟩ := fields_of_unplaced h
  exact
    { file := hfile.trans hw.file
      name := hname.trans hw.name
      code := hcode.trans hw.code
      isInline := (congrArg Option.isSome howner).trans hw.isInline
      secondId := hsecond.trans hw.secondId
      compileId := hcompile.trans hw.compileId }

/-- Which compile id means a version. -/
theorem Version.IsFrom.isOf_iff (hv : v.IsFrom b) (hb : b.isInline = false) {path : String}
    {id : Nat} : v.file = path ∧ v.compileId = some (id : Int) ↔ b.IsOf path id := by
  rw [hv.file, hv.compileId, hb, if_neg Bool.false_ne_true, Option.some.injEq, Int.ofNat_inj]
  rfl

end Versions

namespace Model

variable {m m' grown : Model} {owner v : Version} {created : List (String × String)}
  {blocks : List SourceBlock} {b c : SourceBlock} {k : Nat}

theorem isFrom_newCompiled (hb : b.isInline = false) : (m.newCompiled b).IsFrom b where
  file := rfl
  name := rfl
  code := rfl
  isInline := hb.symm
  secondId := by
    simp only [SourceBlock.isInline, bne_eq_false_iff_eq] at hb
    rw [hb]
    rfl
  compileId := by rw [hb]; rfl

theorem isFrom_newCopy (hb : b.isInline = true) (hfile : owner.file = b.file) :
    (m.newCopy owner b.name b.secondId b.code).IsFrom b where
  file := hfile
  name := rfl
  code := rfl
  isInline := hb.symm
  secondId := rfl
  compileId := by rw [hb]; rfl

/-- **The deoptimisations of a copy's block** are noted once. -/
theorem perm_deopts_noteDeopts (hat : m.versions[owner.handle]? = some owner)
    (hgrown : m.registerCopy owner b.name b.secondId b.code = .ok grown) :
    ((grown.noteDeopts owner.handle b.deopts).versions.toList.flatMap (·.deopts)).Perm
      (m.versions.toList.flatMap (·.deopts) ++ b.deopts) := by
  have hread := getElem?_registerCopy hat hgrown owner.handle
  rw [if_neg (Nat.ne_of_lt (lt_nextHandle hat)), if_pos rfl, ← Array.getElem?_toList] at hread
  have hcopies : grown.versions.toList.flatMap (·.deopts) =
      m.versions.toList.flatMap (·.deopts) := by
    obtain ⟨-, rfl⟩ := registerCopy_eq_ok_iff.mp hgrown
    rw [modifyVersion, Array.toList_modify, flatMap_modify (by exact fun _ => rfl), addVersion,
      Array.toList_push, List.flatMap_append]
    exact List.append_nil _
  rw [noteDeopts, modifyVersion, Array.toList_modify, ← hcopies]
  exact (flatMap_modify_append_perm hread rfl).trans List.perm_append_comm

/-! ### What is noted -/

/-- **What a list of blocks has left in the arena**: a version for each block, in order, with the
deoptimisations that are noted with it. -/
structure Noted (blocks : List SourceBlock) (m : Model) : Prop where
  size : m.versions.size = blocks.length
  exists_version : ∀ {k : Nat} {b}, blocks[k]? = some b → ∃ v, m.versions[k]? = some v ∧
    v.IsFrom b ∧ v.deopts = b.noted (blocks.drop (k + 1))
  perm : (m.versions.toList.flatMap (·.deopts)).Perm (blocks.flatMap (·.deopts))

namespace Noted

theorem empty : Noted [] Model.empty where
  size := rfl
  exists_version h := absurd h (by simp)
  perm := .rfl

/-- Placing copies does not change what is noted. -/
theorem of_unplaced (hm : Noted blocks m)
    (h : m'.versions.map Version.unplaced = m.versions.map Version.unplaced) :
    Noted blocks m' where
  size := by
    have hsize := congrArg Array.size h
    rwa [Array.size_map, Array.size_map, hm.size] at hsize
  exists_version {k b} hb := by
    obtain ⟨v, hv, hfrom, hdeopts⟩ := hm.exists_version hb
    have hmap := congrArg (·[k]?) h
    simp only [Array.getElem?_map, hv, Option.map_some] at hmap
    obtain ⟨v', hv', heq⟩ := Option.map_eq_some_iff.mp hmap
    obtain ⟨-, -, -, -, -, -, hsame⟩ := Version.fields_of_unplaced heq
    exact ⟨v', hv', hfrom.of_unplaced heq, hsame.trans hdeopts⟩
  perm := by
    have hread : ∀ m : Model, m.versions.toList.flatMap (·.deopts) =
        (m.versions.map Version.unplaced).toList.flatMap (·.deopts) := fun m => by
      rw [Array.toList_map, List.flatMap_map]
      rfl
    rw [hread, h, ← hread]
    exact hm.perm

/-- The block of a version, from its place. -/
theorem exists_block (hm : Noted blocks m) (hv : m.versions[k]? = some v) :
    ∃ b, blocks[k]? = some b ∧ v.IsFrom b ∧ v.deopts = b.noted (blocks.drop (k + 1)) := by
  have hlt : k < blocks.length := hm.size ▸ (Array.getElem?_eq_some_iff.mp hv).1
  have hb := List.getElem?_eq_getElem hlt
  obtain ⟨w, hw, hfrom, hdeopts⟩ := hm.exists_version hb
  obtain rfl := Option.some.inj (hv.symm.trans hw)
  exact ⟨_, hb, hfrom, hdeopts⟩

/-- **The version that a compile id means** comes from the block behind which the id has not been
compiled again. -/
theorem owns_iff (hm : Noted blocks m) (hindexed : Indexed created m) (hc : c.isInline = true)
    (howner : m.fileVersion c.file c.compileId = .ok owner) (hb : blocks[k]? = some b)
    (hcompiled : b.isInline = false) :
    b.Owns (blocks.drop (k + 1)) c ↔ k = owner.handle := by
  obtain ⟨hmem, hkey, hlatest⟩ := hindexed.fileVersion_eq_ok_iff.mp howner
  obtain ⟨hmem, howns⟩ := mem_compiled_iff.mp hmem
  have hat := hindexed.coherent.getElem?_handle hmem
  -- the blocks that compile the id come up to the place of the version that it means
  have hle : ∀ {j : Nat} {d}, blocks[j]? = some d → d.isInline = false →
      d.IsOf c.file c.compileId → j ≤ owner.handle := by
    intro j d hd hdcompiled hdkey
    obtain ⟨w, hw, hfrom, -⟩ := hm.exists_version hd
    rw [← hindexed.coherent.handle_eq hw]
    refine hlatest w (mem_compiled_iff.mpr ⟨mem_versions_iff.mpr ⟨j, hw⟩, ?_⟩) ?_
    · rw [hfrom.isInline, hdcompiled]
    · exact (hfrom.isOf_iff hdcompiled).mpr hdkey
  obtain ⟨d, hd, hfrom, -⟩ := hm.exists_block hat
  have hdcompiled : d.isInline = false := hfrom.isInline.symm.trans howns
  have hdkey := (hfrom.isOf_iff hdcompiled).mp hkey
  constructor
  · rintro ⟨-, ⟨hfile, hid⟩, hlast⟩
    refine Nat.le_antisymm (hle hb hcompiled ⟨hfile.symm, hid.symm⟩) ?_
    refine Nat.le_of_not_lt fun hlt => ?_
    have hbehind : d ∈ blocks.drop (k + 1) := by
      refine List.mem_iff_getElem?.mpr ⟨owner.handle - (k + 1), ?_⟩
      rwa [List.getElem?_drop, Nat.add_sub_cancel' hlt]
    exact absurd (hlast d hbehind (hfile ▸ hid ▸ hdkey)) (by simp [hdcompiled])
  · rintro rfl
    obtain rfl := Option.some.inj (hd.symm.trans hb)
    refine ⟨hc, ⟨hdkey.1.symm, hdkey.2.symm⟩, fun e he hekey => ?_⟩
    obtain ⟨j, he⟩ := List.mem_iff_getElem?.mp he
    rw [List.getElem?_drop] at he
    by_contra hecompiled
    have := hle he (by simpa using hecompiled) ⟨hekey.1.trans hdkey.1, hekey.2.trans hdkey.2⟩
    omega

/-- **A further block**: what it adds comes last, and something may be noted with a version that
is there. -/
theorem concat (hm : Noted blocks m) (hsize : m'.versions.size = m.versions.size + 1)
    (hnew : ∃ v, m'.versions[m.nextHandle]? = some v ∧ v.IsFrom c ∧ v.deopts = c.noted [])
    (hold : ∀ (k : Nat) b v, blocks[k]? = some b → m.versions[k]? = some v → v.IsFrom b →
      v.deopts = b.noted (blocks.drop (k + 1)) → ∃ v', m'.versions[k]? = some v' ∧ v'.IsFrom b ∧
        v'.deopts = b.noted (blocks.drop (k + 1) ++ [c]))
    (hperm : (m'.versions.toList.flatMap (·.deopts)).Perm
      (m.versions.toList.flatMap (·.deopts) ++ c.deopts)) : Noted (blocks ++ [c]) m' where
  size := by rw [hsize, hm.size, List.length_append, List.length_singleton]
  exists_version {k b} hb := by
    have hnext : m.nextHandle = blocks.length := hm.size
    have hlt := (List.getElem?_eq_some_iff.mp hb).1
    rw [List.length_append, List.length_singleton] at hlt
    rcases Nat.lt_or_eq_of_le (Nat.le_of_lt_succ hlt) with hk | rfl
    · rw [List.getElem?_append_left hk] at hb
      rw [List.drop_append_of_le_length hk]
      obtain ⟨v, hv, hfrom, hdeopts⟩ := hm.exists_version hb
      exact hold k b v hb hv hfrom hdeopts
    · rw [List.getElem?_append_right (Nat.le_refl _), Nat.sub_self] at hb
      obtain rfl : c = b := by simpa using hb
      rw [List.drop_of_length_le (by simp), ← hnext]
      exact hnew
  perm := by
    rw [List.flatMap_append, List.flatMap_singleton]
    exact hperm.trans (hm.perm.append_right _)

theorem applyCompiled (hm : Noted blocks m) (hc : c.isInline = false) :
    Noted (blocks ++ [c]) (m.applyCompiled c) := by
  have hversions := versions_applyCompiled m c
  have hsize : (m.applyCompiled c).versions.size = m.versions.size + 1 := by
    rw [hversions, addVersion, Array.size_push]
  refine hm.concat hsize ⟨m.newCompiled c, ?_, isFrom_newCompiled hc, ?_⟩ ?_ ?_
  · rw [hversions, getElem?_addVersion, if_pos rfl]
  · simp [newCompiled, SourceBlock.noted, hc, SourceBlock.owned]
  · intro k b v hb hv hfrom hdeopts
    refine ⟨v, ?_, hfrom, ?_⟩
    · rw [hversions, getElem?_addVersion, if_neg (Nat.ne_of_lt (lt_nextHandle hv)), hv]
    · rw [SourceBlock.noted_append_of_not fun h => ?_, hdeopts]
      exact absurd h.1 (by simp [hc])
  · rw [hversions, addVersion, Array.toList_push, List.flatMap_append, List.flatMap_singleton]
    exact .rfl

theorem applyInline (hm : Noted blocks m) (hindexed : Indexed created m) (hc : c.isInline = true)
    (h : (m.applyInline c).result = .ok m') : Noted (blocks ++ [c]) m' := by
  obtain ⟨owner, grown, howner, hgrown, hm'⟩ := exists_noteDeopts_of_applyInline
    hindexed.coherent h
  suffices hgrownNoted : Noted (blocks ++ [c]) (grown.noteDeopts owner.handle c.deopts) by
    rcases hm' with rfl | ⟨parent, offset, rfl⟩
    · exact hgrownNoted
    · exact hgrownNoted.of_unplaced (map_place _ _ _ _ fun _ _ _ => rfl)
  obtain ⟨hmem, hkey, -⟩ := hindexed.fileVersion_eq_ok_iff.mp howner
  obtain ⟨hmem, howns⟩ := mem_compiled_iff.mp hmem
  have hat := hindexed.coherent.getElem?_handle hmem
  have hread := getElem?_noteDeopts_registerCopy hat hgrown
  refine hm.concat ?_ ⟨m.newCopy owner c.name c.secondId c.code, ?_, isFrom_newCopy hc hkey.1, ?_⟩
    ?_ (perm_deopts_noteDeopts hat hgrown)
  · obtain ⟨-, rfl⟩ := registerCopy_eq_ok_iff.mp hgrown
    simp [noteDeopts, modifyVersion, addVersion]
  · rw [hread, if_pos rfl]
  · rw [SourceBlock.noted_of_inline hc]
    rfl
  intro k b v hb hv hfrom hdeopts
  rw [hread, if_neg (Nat.ne_of_lt (lt_nextHandle hv))]
  by_cases hk : k = owner.handle
  · obtain rfl := Option.some.inj (hv.symm.trans (hk ▸ hat))
    have hcompiled : b.isInline = false := hfrom.isInline.symm.trans howns
    have howned := (hm.owns_iff hindexed hc howner hb hcompiled).mpr hk
    refine ⟨_, if_pos hk, ⟨hfrom.file, hfrom.name, hfrom.code, hfrom.isInline, hfrom.secondId,
      hfrom.compileId⟩, ?_⟩
    rw [SourceBlock.noted_append_of_owns hcompiled howned, ← hdeopts]
    rfl
  · refine ⟨v, by rw [if_neg hk, hv], hfrom, ?_⟩
    rw [hdeopts]
    cases hb' : b.isInline with
    | true => rw [SourceBlock.noted_of_inline hb', SourceBlock.noted_of_inline hb']
    | false =>
      rw [SourceBlock.noted_append_of_not]
      exact fun howned => hk ((hm.owns_iff hindexed hc howner hb hb').mp howned)

end Noted

/-- What the blocks of a list note, if all of them are accepted. -/
theorem noted_of_applySources (h : (Model.empty.applySources blocks).result = .ok m) :
    Noted blocks m := by
  obtain ⟨built, hrun, rfl⟩ := exists_of_applySources h
  have hbuilt : Noted blocks built ∧ ∃ created, Indexed created built := by
    refine Progress.forAll_items_induction Model.applySource
      (fun blocks m => Noted blocks m ∧ ∃ created, Indexed created m) ?_ ⟨.empty, [], .empty⟩ hrun
    rintro before m b m' ⟨hm, created, hindexed⟩ hstep
    refine ⟨?_, _, Progress.model_eq_of_result hstep ▸ hindexed.applySource b⟩
    rw [applySource] at hstep
    split at hstep
    · next hb => exact hm.applyInline hindexed hb hstep
    · next hb =>
      obtain rfl := Except.ok.inj hstep
      exact hm.applyCompiled (by simpa using hb)
  exact hbuilt.1.of_unplaced (by rw [versions_markDeopted])

/-- **Where the deoptimisations of source blocks are noted**: every block adds a version, in the
order of the blocks. With a compiled version the deoptimisations of its own block are noted, and
then, in the order of the blocks, those of the copies that it owns; with a copy there are none. So
every deoptimisation is noted once. -/
theorem deopts_of_applySources (h : (Model.empty.applySources blocks).result = .ok m) :
    m.versions.size = blocks.length ∧
    (∀ (k : Nat) v, m.versions[k]? = some v → ∃ b, blocks[k]? = some b ∧ v.IsFrom b ∧
      (v.isInline = false → v.deopts =
        b.deopts ++ (b.owned (blocks.drop (k + 1))).flatMap (·.deopts)) ∧
      (v.isInline = true → v.deopts = [])) ∧
    (m.versions.toList.flatMap (·.deopts)).Perm (blocks.flatMap (·.deopts)) := by
  have hm := noted_of_applySources h
  refine ⟨hm.size, fun k v hv => ?_, hm.perm⟩
  obtain ⟨b, hb, hfrom, hdeopts⟩ := hm.exists_block hv
  rw [hfrom.isInline, hdeopts]
  refine ⟨b, hb, hfrom, fun hcompiled => ?_, fun hinline => SourceBlock.noted_of_inline hinline _⟩
  exact if_neg (by simp [hcompiled])

/-- A block that is nowhere placed. -/
def loose (name : String) (compileId secondId : Nat) (deopts : List String) : SourceBlock :=
  { file := "a.js", name, compileId, secondId, code := "x".toList, deopts, placement := none }

/-- Copies in two functions come in turns, and one of the functions is compiled again. -/
def interleaved : List SourceBlock := [
  loose "f" 0 0 ["wrong map"], loose "g" 1 0 [], loose "h" 0 1 ["not a Smi", "not a Smi"],
  loose "h" 1 1 ["hole"], loose "f" 0 0 ["overflow"], loose "h" 0 1 ["hole"]]

/-- The model of the two functions. -/
def interleavedModel : Model := (Model.empty.applySources interleaved).model

theorem deopts_interleaved :
    (Model.empty.applySources interleaved).result = .ok interleavedModel ∧
    interleavedModel.versions.toList.map (·.deopts) =
      [["wrong map", "not a Smi", "not a Smi"], ["hole"], [], [], ["overflow", "hole"], []] ∧
    interleavedModel.versions.size = 6 ∧
    (interleavedModel.versions.toList.flatMap (·.deopts)).Perm
      (interleaved.flatMap (·.deopts)) := by
  have h : (Model.empty.applySources interleaved).result = .ok interleavedModel := rfl
  obtain ⟨hsize, -, hperm⟩ := deopts_of_applySources h
  exact ⟨h, rfl, hsize, hperm⟩

end Model

end InlineReport
