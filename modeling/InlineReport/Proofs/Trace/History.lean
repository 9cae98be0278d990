import Mathlib.Data.List.Induction
import InlineReport.Model.Build

/-!
# The history of a source block

The block of an inline copy belongs to a compiled version that earlier blocks of the stream have
introduced. A compile id may be used again in a file, and then it means the new version; so what
counts is the last block that compiles the id in the file (`LastCompiled`), and the copies that
came since then (`HasCopy`).

A block is admissible (`Admissible`) if its version is there, its number is free, and what it
should be placed in is there. Otherwise it has a fault, and only one (`Fault.unique`), although
several things may be wrong with it: they are looked at in a fixed order.
-/

namespace InlineReport

/-! ### What came before -/

/-- Whether a block is of the version with a compile id in a file: the block of the version
itself, or that of a copy in it. -/
def SourceBlock.IsOf (b : SourceBlock) (path : String) (id : Nat) : Prop :=
  b.file = path ∧ b.compileId = id

instance (b : SourceBlock) (path : String) (id : Nat) : Decidable (b.IsOf path id) :=
  inferInstanceAs (Decidable (_ ∧ _))

/-- **The last compilation** of an id in a file: the blocks `before` have the block `owner` of a
compiled version of it, and behind it the blocks `since`, none of which compiles it again. -/
structure LastCompiled (path : String) (id : Nat) (before : List SourceBlock) (owner : SourceBlock)
    (since : List SourceBlock) : Prop where
  split : ∃ earlier, before = earlier ++ owner :: since
  compiled : owner.isInline = false
  isOf : owner.IsOf path id
  last : ∀ c ∈ since, c.IsOf path id → c.isInline = true

/-- Some blocks have that of a copy with this number. -/
def HasCopy (path : String) (id : Nat) (since : List SourceBlock) (number : Nat) : Prop :=
  ∃ c ∈ since, c.isInline = true ∧ c.IsOf path id ∧ c.secondId = number

section History

variable {path : String} {id : Nat} {before since since' : List SourceBlock}
  {owner owner' b : SourceBlock}

theorem not_lastCompiled_nil : ¬ LastCompiled path id [] owner since := by
  rintro ⟨⟨earlier, hsplit⟩, -, -, -⟩
  exact absurd hsplit.symm (List.append_ne_nil_of_right_ne_nil _ (List.cons_ne_nil _ _))

/-- **A further block** compiles the id, or comes since it was compiled last. -/
theorem lastCompiled_append_iff : LastCompiled path id (before ++ [b]) owner since ↔
    (b.isInline = false ∧ b.IsOf path id ∧ owner = b ∧ since = []) ∨
      ((b.IsOf path id → b.isInline = true) ∧
        ∃ since', LastCompiled path id before owner since' ∧ since = since' ++ [b]) := by
  constructor
  · rintro ⟨⟨earlier, hsplit⟩, hcompiled, hisOf, hlast⟩
    rcases List.eq_nil_or_concat since with rfl | ⟨since', c, rfl⟩
    · obtain ⟨-, hbowner⟩ := List.append_inj' hsplit rfl
      obtain rfl := List.singleton_inj.mp hbowner
      exact Or.inl ⟨hcompiled, hisOf, rfl, rfl⟩
    · rw [List.concat_eq_append] at hsplit hlast ⊢
      rw [← List.cons_append, ← List.append_assoc] at hsplit
      obtain ⟨rfl, hbc⟩ := List.append_inj' hsplit rfl
      obtain rfl := List.singleton_inj.mp hbc
      refine Or.inr ⟨hlast b (by simp), since', ⟨⟨earlier, rfl⟩, hcompiled, hisOf, ?_⟩, rfl⟩
      exact fun c hc => hlast c (List.mem_append_left _ hc)
  · rintro (⟨hcompiled, hisOf, rfl, rfl⟩ |
      ⟨hb, since', ⟨⟨earlier, rfl⟩, hcompiled, hisOf, hlast⟩, rfl⟩)
    · exact ⟨⟨before, rfl⟩, hcompiled, hisOf, fun c hc => absurd hc List.not_mem_nil⟩
    · refine ⟨⟨earlier, by simp⟩, hcompiled, hisOf, fun c hc => ?_⟩
      rcases List.mem_append.mp hc with hc | hc
      · exact hlast c hc
      · rwa [List.mem_singleton.mp hc]

/-- The last compilation is one only. -/
theorem LastCompiled.unique (h : LastCompiled path id before owner since)
    (h' : LastCompiled path id before owner' since') : owner = owner' ∧ since = since' := by
  induction before using List.reverseRecOn generalizing since since' with
  | nil => exact absurd h not_lastCompiled_nil
  | append_singleton before b ih =>
    rcases lastCompiled_append_iff.mp h with
      ⟨hcompiled, hisOf, rfl, rfl⟩ | ⟨hb, front, hfront, rfl⟩
    · rcases lastCompiled_append_iff.mp h' with ⟨-, -, rfl, rfl⟩ | ⟨hb', -⟩
      · exact ⟨rfl, rfl⟩
      · exact absurd (hb' hisOf) (by simp [hcompiled])
    · rcases lastCompiled_append_iff.mp h' with
        ⟨hcompiled', hisOf', -, -⟩ | ⟨-, front', hfront', rfl⟩
      · exact absurd (hb hisOf') (by simp [hcompiled'])
      · obtain ⟨rfl, rfl⟩ := ih hfront hfront'
        exact ⟨rfl, rfl⟩

theorem hasCopy_append_iff {number : Nat} : HasCopy path id (since ++ [b]) number ↔
    HasCopy path id since number ∨
      (b.isInline = true ∧ b.IsOf path id ∧ b.secondId = number) := by
  simp only [HasCopy, List.mem_append, List.mem_singleton, or_and_right, exists_or,
    exists_eq_left]

end History

/-! ### What may come next -/

/-- Since the version of a block was compiled last, the copy has come that the block's copy
should be placed in; it may be the version itself, or nothing at all. -/
def PlaceKnown (since : List SourceBlock) (b : SourceBlock) : Prop :=
  ∀ place, b.placement = some place →
    place.parentId = 0 ∨ HasCopy b.file b.compileId since place.parentId

/-- **An admissible block** of a copy: its version has been compiled, and since then no copy of
its number has come, but the copy has that it should be placed in. -/
def Admissible (before : List SourceBlock) (b : SourceBlock) : Prop :=
  ∃ owner since, LastCompiled b.file b.compileId before owner since ∧
    ¬ HasCopy b.file b.compileId since b.secondId ∧ PlaceKnown since b

/-- What is said of a block whose version has not been compiled: nothing may have been compiled
in its file. -/
def missingVersion (fileKnown : Prop) [Decidable fileKnown] (b : SourceBlock) : LookupFailure :=
  if fileKnown then ⟨"version", s!"{b.file}#{b.compileId}"⟩ else ⟨"file", b.file⟩

/-- Some block compiles something in a file. -/
def FileKnown (path : String) (before : List SourceBlock) : Prop :=
  ∃ c ∈ before, c.isInline = false ∧ c.file = path

instance (path : String) (before : List SourceBlock) : Decidable (FileKnown path before) :=
  inferInstanceAs (Decidable (∃ c ∈ before, _))

/-- **The fault of a block** that is not admissible. What is wrong is looked for in the order of
the cases. -/
inductive Fault (before : List SourceBlock) (b : SourceBlock) : TraceError → Prop
  /-- Its version has not been compiled. -/
  | unowned (hnone : ∀ owner since, ¬ LastCompiled b.file b.compileId before owner since) :
    Fault before b (.unresolved (missingVersion (FileKnown b.file before) b)
      (Model.inlineContext b))
  /-- A copy of its number has come already. -/
  | repeated {owner : SourceBlock} {since : List SourceBlock}
    (howner : LastCompiled b.file b.compileId before owner since)
    (hused : HasCopy b.file b.compileId since b.secondId) :
    Fault before b (.duplicateInline b.compileId b.secondId)
  /-- It should be placed in itself. -/
  | inItself {owner : SourceBlock} {since : List SourceBlock} {place : Placement}
    (howner : LastCompiled b.file b.compileId before owner since)
    (hfree : ¬ HasCopy b.file b.compileId since b.secondId)
    (hplace : b.placement = some place) (hunknown : ¬ PlaceKnown since b)
    (hself : place.parentId = b.secondId) :
    Fault before b (.inlineCycle s!"{Model.inlineContext b} is placed inside itself")
  /-- The copy that it should be placed in has not come. -/
  | nowhere {owner : SourceBlock} {since : List SourceBlock} {place : Placement}
    (howner : LastCompiled b.file b.compileId before owner since)
    (hfree : ¬ HasCopy b.file b.compileId since b.secondId)
    (hplace : b.placement = some place) (hunknown : ¬ PlaceKnown since b)
    (hself : place.parentId ≠ b.secondId) :
    Fault before b (.unresolved
      ⟨"inline", s!"{owner.name}#{b.compileId}/{place.parentId}"⟩ (Model.inlineContext b))

section Next

variable {before : List SourceBlock} {b : SourceBlock} {e e' : TraceError}

/-- An admissible block has no fault. -/
theorem Admissible.not_fault (h : Admissible before b) : ¬ Fault before b e := by
  obtain ⟨owner, since, howner, hfree, hknown⟩ := h
  intro hfault
  cases hfault with
  | unowned hnone => exact hnone _ _ howner
  | repeated howner' hused =>
    obtain ⟨rfl, rfl⟩ := howner.unique howner'
    exact hfree hused
  | inItself howner' _ _ hunknown _ =>
    obtain ⟨rfl, rfl⟩ := howner.unique howner'
    exact hunknown hknown
  | nowhere howner' _ _ hunknown _ =>
    obtain ⟨rfl, rfl⟩ := howner.unique howner'
    exact hunknown hknown

/-- **A block has one fault only.** -/
theorem Fault.unique (h : Fault before b e) (h' : Fault before b e') : e = e' := by
  cases h with
  | unowned hnone =>
    cases h' with
    | unowned _ => rfl
    | repeated howner _ => exact absurd howner (hnone _ _)
    | inItself howner _ _ _ _ => exact absurd howner (hnone _ _)
    | nowhere howner _ _ _ _ => exact absurd howner (hnone _ _)
  | repeated howner hused =>
    cases h' with
    | unowned hnone => exact absurd howner (hnone _ _)
    | repeated _ _ => rfl
    | inItself howner' hfree _ _ _ =>
      obtain ⟨rfl, rfl⟩ := howner.unique howner'
      exact absurd hused hfree
    | nowhere howner' hfree _ _ _ =>
      obtain ⟨rfl, rfl⟩ := howner.unique howner'
      exact absurd hused hfree
  | inItself howner hfree hplace hunknown hself =>
    cases h' with
    | unowned hnone => exact absurd howner (hnone _ _)
    | repeated howner' hused =>
      obtain ⟨rfl, rfl⟩ := howner.unique howner'
      exact absurd hused hfree
    | inItself _ _ _ _ _ => rfl
    | nowhere _ _ hplace' _ hself' =>
      obtain rfl := Option.some.inj (hplace.symm.trans hplace')
      exact absurd hself hself'
  | nowhere howner hfree hplace hunknown hself =>
    cases h' with
    | unowned hnone => exact absurd howner (hnone _ _)
    | repeated howner' hused =>
      obtain ⟨rfl, rfl⟩ := howner.unique howner'
      exact absurd hused hfree
    | inItself _ _ hplace' _ hself' =>
      obtain rfl := Option.some.inj (hplace.symm.trans hplace')
      exact absurd hself' hself
    | nowhere howner' _ hplace' _ _ =>
      obtain ⟨rfl, -⟩ := howner.unique howner'
      obtain rfl := Option.some.inj (hplace.symm.trans hplace')
      rfl

end Next

end InlineReport
