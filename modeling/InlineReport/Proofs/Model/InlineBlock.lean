import InlineReport.Proofs.Model.Lookup

/-!
# What the block of a copy does

The block of a copy can go wrong in four ways, and the copy is registered already when two of
them show. `Model.InlineStep` lists all that can happen, with the model as it is then and the
failure, and `Model.inlineStep_applyInline` says that nothing else does; whatever is to be said
about such a block is said by going through the list.
-/

namespace InlineReport

namespace Model

variable {m grown : Model} {owner : Version} {b : SourceBlock} {h : Nat} {v : Version}

/-! ### The parts of the work -/

/-- Notes deoptimisations with a version. -/
def noteDeopts (m : Model) (handle : Nat) (deopts : List String) : Model :=
  m.modifyVersion handle fun v => { v with deopts := v.deopts ++ deopts }

/-- Places a copy in the text of its parent. -/
def place (m : Model) (child parent : Nat) (offset : Int) : Model :=
  (m.modifyVersion child fun v => { v with offset }).modifyVersion parent fun v =>
    { v with inlines := v.inlines ++ [(child : Int)] }

theorem sameEntries_noteDeopts (m : Model) (handle : Nat) (deopts : List String) :
    SameEntries m (m.noteDeopts handle deopts) :=
  .modifyVersion m handle fun _ => rfl

theorem sameEntries_place (m : Model) (child parent : Nat) (offset : Int) :
    SameEntries m (m.place child parent offset) := by
  refine (SameEntries.modifyVersion m child ?_).trans (SameEntries.modifyVersion _ parent ?_)
  · exact fun _ => rfl
  · exact fun _ => rfl

/-- **What the block of a copy can do**: the model after it and the failure, if any. -/
inductive InlineStep (m : Model) (b : SourceBlock) : Progress → Prop
  /-- No version has the compile id. -/
  | unowned {e : LookupFailure} (howner : m.fileVersion b.file b.compileId = .error e) :
    InlineStep m b ⟨m, some (unresolved (inlineContext b) e)⟩
  /-- The version has a copy of this number already. -/
  | repeated {owner : Version} (howner : m.fileVersion b.file b.compileId = .ok owner)
    (hused : (owner.copies.get? b.secondId).isSome) :
    InlineStep m b ⟨m, some (TraceError.duplicateInline (owner.compileId.getD 0) b.secondId)⟩
  /-- The copy is registered, and stands nowhere. -/
  | unplaced {owner : Version} {grown : Model}
    (howner : m.fileVersion b.file b.compileId = .ok owner)
    (hgrown : m.registerCopy owner b.name b.secondId b.code = .ok grown)
    (hplace : b.placement = none) :
    InlineStep m b { model := grown.noteDeopts owner.handle b.deopts }
  /-- The copy is registered, and there is no copy that it could be placed in. -/
  | nowhere {owner : Version} {grown : Model} {place : Placement}
    (howner : m.fileVersion b.file b.compileId = .ok owner)
    (hgrown : m.registerCopy owner b.name b.secondId b.code = .ok grown)
    (hplace : b.placement = some place) (hzero : place.parentId ≠ 0)
    (hself : place.parentId ≠ b.secondId) (hparent : owner.copies.get? place.parentId = none) :
    InlineStep m b ⟨grown.noteDeopts owner.handle b.deopts, some (unresolved (inlineContext b)
      ⟨"inline", s!"{owner.name}#{shownId owner.compileId}/{(place.parentId : Int)}"⟩)⟩
  /-- The copy is registered, and should be placed in itself. -/
  | inItself {owner : Version} {grown : Model} {place : Placement}
    (howner : m.fileVersion b.file b.compileId = .ok owner)
    (hgrown : m.registerCopy owner b.name b.secondId b.code = .ok grown)
    (hplace : b.placement = some place) (hself : place.parentId = b.secondId) :
    InlineStep m b ⟨grown.noteDeopts owner.handle b.deopts,
      some (.trace (.inlineCycle s!"{inlineContext b} is placed inside itself"))⟩
  /-- The copy is registered and placed in the version or in one of its copies. -/
  | placed {owner : Version} {grown : Model} {place : Placement} {parent : Nat}
    (howner : m.fileVersion b.file b.compileId = .ok owner)
    (hgrown : m.registerCopy owner b.name b.secondId b.code = .ok grown)
    (hplace : b.placement = some place)
    (hparent : (place.parentId = 0 ∧ parent = owner.handle) ∨
      (place.parentId ≠ 0 ∧ place.parentId ≠ b.secondId ∧
        owner.copies.get? place.parentId = some parent)) :
    InlineStep m b { model :=
      (grown.noteDeopts owner.handle b.deopts).place m.nextHandle parent place.offset }

/-! ### Placing a copy -/

/-- The owner of a copy that has just been registered. -/
def grownOwner (m : Model) (owner : Version) (b : SourceBlock) : Version :=
  { owner with
    copies := owner.copies.insert b.secondId m.nextHandle
    deopts := owner.deopts ++ b.deopts }

/-- **The arena with the copy of a block**: the copy comes last, and with its owner the block's
deoptimisations are noted. -/
theorem getElem?_noteDeopts_registerCopy (howner : m.versions[owner.handle]? = some owner)
    (hgrown : m.registerCopy owner b.name b.secondId b.code = .ok grown) (h : Nat) :
    (grown.noteDeopts owner.handle b.deopts).versions[h]? =
      if h = m.nextHandle then some (m.newCopy owner b.name b.secondId b.code)
      else if h = owner.handle then some (m.grownOwner owner b)
      else m.versions[h]? := by
  have hlt := lt_nextHandle howner
  rw [noteDeopts, getElem?_modifyVersion, getElem?_registerCopy howner hgrown]
  by_cases hh : h = owner.handle
  · have hne : h ≠ m.nextHandle := by omega
    rw [if_pos hh, if_neg hne, if_pos hh, if_neg hne, if_pos hh]
    rfl
  · rw [if_neg hh, if_neg hh, if_neg hh]

/-- What a second id means in the owner of a copy that has just been registered. -/
theorem copyOf_grownOwner (hm : Coherent m) (howner : m.versions[owner.handle]? = some owner)
    (hgrown : m.registerCopy owner b.name b.secondId b.code = .ok grown) {id : Nat}
    (hid : id ≠ 0) :
    (id = b.secondId ∧ ∃ v, (grown.noteDeopts owner.handle b.deopts).copyOf
        (m.grownOwner owner b) id = .ok v ∧ v.handle = m.nextHandle) ∨
      (id ≠ b.secondId ∧ owner.copies.get? id = none ∧
        (grown.noteDeopts owner.handle b.deopts).copyOf (m.grownOwner owner b) id =
          .error ⟨"inline", s!"{owner.name}#{shownId owner.compileId}/{(id : Int)}"⟩) ∨
      (id ≠ b.secondId ∧ ∃ v, owner.copies.get? id = some v.handle ∧
        (grown.noteDeopts owner.handle b.deopts).copyOf (m.grownOwner owner b) id = .ok v ∧
        v.handle ≠ m.nextHandle) := by
  have hid' : (id : Int) ≠ 0 := by omega
  have hcoherent := (hm.registerCopy howner hgrown).of_entries
    (sameEntries_noteDeopts grown owner.handle b.deopts).versions
  have hget : (m.grownOwner owner b).copies.get? id =
      if (b.secondId : Int) = id then some m.nextHandle else owner.copies.get? id :=
    Registry.get?_insert _ _ _ _
  rw [copyOf, if_neg hid']
  by_cases hself : id = b.secondId
  · refine Or.inl ⟨hself, m.newCopy owner b.name b.secondId b.code, ?_, rfl⟩
    refine versionIn_eq_ok_iff.mpr ⟨m.nextHandle, ?_, ?_⟩
    · rw [hget, if_pos (by rw [hself])]
    · rw [getElem?_noteDeopts_registerCopy howner hgrown, if_pos rfl]
  have hself' : (b.secondId : Int) ≠ id := by omega
  rw [if_neg hself'] at hget
  cases hold : owner.copies.get? id with
  | none => exact Or.inr (Or.inl ⟨hself, rfl, versionIn_eq_error (hget.trans hold)⟩)
  | some k =>
    -- the handle is that of a copy that was there before
    obtain ⟨c, hc, -, -⟩ := (hm.copies_iff howner _ _).mp hold
    have hk := lt_nextHandle hc
    obtain ⟨v, hv⟩ : ∃ v, (grown.noteDeopts owner.handle b.deopts).versions[k]? = some v := by
      rw [getElem?_noteDeopts_registerCopy howner hgrown, if_neg (Nat.ne_of_lt hk)]
      split
      · exact ⟨_, rfl⟩
      · exact ⟨c, hc⟩
    have hhandle := hcoherent.handle_eq hv
    refine Or.inr (Or.inr ⟨hself, v, by rw [hhandle], ?_, by omega⟩)
    exact versionIn_eq_ok_iff.mpr ⟨k, hget.trans hold, hv⟩

theorem applyInline_of_registerCopy (howner : m.fileVersion b.file b.compileId = .ok owner)
    (hgrown : m.registerCopy owner b.name b.secondId b.code = .ok grown) :
    m.applyInline b = match b.placement with
      | none => { model := grown.noteDeopts owner.handle b.deopts }
      | some place => (grown.noteDeopts owner.handle b.deopts).placeCopy (inlineContext b)
          owner.handle m.nextHandle place := by
  simp only [applyInline, howner, hgrown]
  rfl

/-- **Nothing else happens** with the block of a copy. -/
theorem inlineStep_applyInline (hm : Coherent m) : InlineStep m b (m.applyInline b) := by
  cases howner : m.fileVersion b.file b.compileId with
  | error e =>
    simp only [applyInline, howner]
    exact .unowned howner
  | ok owner =>
    have hat := hm.getElem?_of_fileVersion howner
    cases hused : owner.copies.get? b.secondId with
    | some k =>
      simp only [applyInline, howner, registerCopy, Registry.contains, hused, Option.isSome_some,
        if_true]
      exact .repeated howner (by rw [hused, Option.isSome_some])
    | none =>
      obtain ⟨grown, hgrown⟩ : ∃ grown, m.registerCopy owner b.name b.secondId b.code = .ok grown :=
        ⟨_, registerCopy_eq_ok_iff.mpr ⟨hused, rfl⟩⟩
      rw [applyInline_of_registerCopy howner hgrown]
      cases hplace : b.placement with
      | none => exact .unplaced howner hgrown hplace
      | some place =>
        have hfind : (grown.noteDeopts owner.handle b.deopts).version owner.handle =
            .ok (m.grownOwner owner b) := by
          rw [version_eq_ok_iff, getElem?_noteDeopts_registerCopy hat hgrown,
            if_neg (Nat.ne_of_lt (lt_nextHandle hat)), if_pos rfl]
        simp only [placeCopy, hfind]
        by_cases hzero : place.parentId = 0
        · have hne : (m.grownOwner owner b).handle ≠ m.nextHandle :=
            Nat.ne_of_lt (lt_nextHandle hat)
          have hzero' : (place.parentId : Int) = 0 := by omega
          simp only [copyOf, if_pos hzero', if_neg hne]
          exact .placed howner hgrown hplace (Or.inl ⟨hzero, rfl⟩)
        rcases copyOf_grownOwner hm hat hgrown hzero with
          ⟨hself, v, hv, hchild⟩ | ⟨hself, hnone, herror⟩ | ⟨hself, v, hparent, hv, hchild⟩
        · simp only [hv, if_pos hchild]
          exact .inItself howner hgrown hplace hself
        · simp only [herror]
          exact .nowhere howner hgrown hplace hzero hself hnone
        · simp only [hv, if_neg hchild]
          exact .placed howner hgrown hplace (Or.inr ⟨hzero, hself, hparent⟩)

/-- **What the block of a copy leaves**: the model as it was, or with a further copy, which is
placed or not. -/
theorem InlineStep.model_induction {inv : Model → Prop} {p : Progress} (h : InlineStep m b p)
    (hm : inv m)
    (hcopy : ∀ owner grown, m.fileVersion b.file b.compileId = .ok owner →
      m.registerCopy owner b.name b.secondId b.code = .ok grown →
      inv (grown.noteDeopts owner.handle b.deopts))
    (hplace : ∀ owner grown parent offset, m.fileVersion b.file b.compileId = .ok owner →
      m.registerCopy owner b.name b.secondId b.code = .ok grown →
      (parent = owner.handle ∨ ∃ id, owner.copies.get? id = some parent) →
      inv ((grown.noteDeopts owner.handle b.deopts).place m.nextHandle parent offset)) :
    inv p.model := by
  cases h with
  | unowned _ => exact hm
  | repeated _ _ => exact hm
  | unplaced howner hgrown _ => exact hcopy _ _ howner hgrown
  | nowhere howner hgrown _ _ _ _ => exact hcopy _ _ howner hgrown
  | inItself howner hgrown _ _ => exact hcopy _ _ howner hgrown
  | placed howner hgrown _ hparent =>
    exact hplace _ _ _ _ howner hgrown (hparent.imp (·.2) fun h => ⟨_, h.2.2⟩)

/-- **What the block of a copy makes** if nothing goes wrong: a further copy, with the
deoptimisations noted with its owner, and then it may be placed. -/
theorem exists_noteDeopts_of_applyInline (hm : Coherent m) {m' : Model}
    (h : (m.applyInline b).result = .ok m') : ∃ owner grown,
      m.fileVersion b.file b.compileId = .ok owner ∧
      m.registerCopy owner b.name b.secondId b.code = .ok grown ∧
      (m' = grown.noteDeopts owner.handle b.deopts ∨ ∃ parent offset,
        m' = (grown.noteDeopts owner.handle b.deopts).place m.nextHandle parent offset) := by
  have hstep := inlineStep_applyInline (b := b) hm
  generalize m.applyInline b = p at h hstep
  cases hstep with
  | unowned _ => exact absurd h (by simp [Progress.result])
  | repeated _ _ => exact absurd h (by simp [Progress.result])
  | unplaced howner hgrown _ =>
    obtain rfl := Except.ok.inj h
    exact ⟨_, _, howner, hgrown, Or.inl rfl⟩
  | nowhere _ _ _ _ _ _ => exact absurd h (by simp [Progress.result])
  | inItself _ _ _ _ => exact absurd h (by simp [Progress.result])
  | placed howner hgrown _ _ =>
    obtain rfl := Except.ok.inj h
    exact ⟨_, _, howner, hgrown, Or.inr ⟨_, _, rfl⟩⟩

/-- As far as entries go, it makes a further copy. -/
theorem exists_of_applyInline (hm : Coherent m) {m' : Model}
    (h : (m.applyInline b).result = .ok m') :
    ∃ owner grown, m.fileVersion b.file b.compileId = .ok owner ∧
      m.registerCopy owner b.name b.secondId b.code = .ok grown ∧ SameEntries grown m' := by
  obtain ⟨owner, grown, howner, hgrown, rfl | ⟨parent, offset, rfl⟩⟩ :=
    exists_noteDeopts_of_applyInline hm h
  · exact ⟨owner, grown, howner, hgrown, sameEntries_noteDeopts _ _ _⟩
  · exact ⟨owner, grown, howner, hgrown,
      (sameEntries_noteDeopts _ _ _).trans (sameEntries_place _ _ _ _)⟩

end Model

end InlineReport
