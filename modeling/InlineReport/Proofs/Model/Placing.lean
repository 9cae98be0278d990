import InlineReport.Proofs.Model.Forest
import InlineReport.Proofs.Model.Sources

/-!
# Source blocks make a forest

Source blocks never place a copy so that the placements fail to be a forest
(`Model.placements_forest`). A block places the copy that it has just added, which is the last
version so far and is placed nowhere yet; and it places it in the version that owns it or in a
copy that this version owned before. So every edge leads down (`Model.LeadsDown`) and no copy
stands twice, and this stays so (`Model.Planted`), whether or not a block goes wrong, and
whichever lists have been applied before.

What is left for the check of the forest to find is nothing; the only fault of this kind that
source blocks can have is a copy that should be placed in itself.
-/

namespace InlineReport

namespace Model

variable {m m' grown : Model} {owner : Version} {created : List (String × String)}
  {b : SourceBlock}

/-- Registering a copy and noting deoptimisations places nothing. -/
theorem edges_registerCopy (hgrown : m.registerCopy owner b.name b.secondId b.code = .ok grown) :
    (grown.noteDeopts owner.handle b.deopts).edges = m.edges := by
  obtain ⟨-, rfl⟩ := registerCopy_eq_ok_iff.mp hgrown
  rw [noteDeopts, edges_modifyVersion, edges_modifyVersion, edges_addVersion m rfl]
  · exact fun _ => ⟨rfl, rfl⟩
  · exact fun _ => ⟨rfl, rfl⟩

theorem HasOwner.registerCopy {h : Nat} {o : Option Int} (hh : m.HasOwner h o)
    (hgrown : m.registerCopy owner b.name b.secondId b.code = .ok grown) :
    (grown.noteDeopts owner.handle b.deopts).HasOwner h o := by
  obtain ⟨-, rfl⟩ := registerCopy_eq_ok_iff.mp hgrown
  refine ((hh.addVersion _).modifyVersion owner.handle ?_).modifyVersion owner.handle ?_
  · exact fun _ => rfl
  · exact fun _ => rfl

/-- **Placing a copy** adds the edge to it. -/
theorem edges_place (hcoherent : Coherent m) {parent : Nat} (child : Nat) (offset : Int)
    (hparent : ∃ v, m.versions[parent]? = some v) :
    (m.place child parent offset).edges.Perm ((parent, (child : Int)) :: m.edges) := by
  -- the offset is written first, and adds no edge
  have hoffset := edges_modifyVersion m child (f := fun v => { v with offset })
    fun _ => ⟨rfl, rfl⟩
  have hsame : SameEntries m (m.modifyVersion child fun v => { v with offset }) :=
    .modifyVersion m child fun _ => rfl
  obtain ⟨v, hv⟩ := hparent
  obtain ⟨w, hw, -⟩ := exists_of_entries hsame.versions hv
  rw [← hoffset]
  exact edges_append_inlines hw ((hcoherent.of_entries hsame.versions).handle_eq hw) child

/-- What a block places its copy in: the version that owns it, or another copy of this version. -/
theorem eq_or_hasOwner_of_parent (hm : Coherent m) (hat : m.versions[owner.handle]? = some owner)
    {parent : Nat} (hparent : parent = owner.handle ∨ ∃ id, owner.copies.get? id = some parent) :
    parent = owner.handle ∨ m.HasOwner parent (some (owner.handle : Int)) := by
  refine hparent.imp_right ?_
  rintro ⟨id, hid⟩
  obtain ⟨c, hc, ho, -⟩ := (hm.copies_iff hat _ _).mp hid
  exact ⟨c, hc, ho⟩

/-- **A planted model**: its edges lead down, and to different copies. -/
structure Planted (m : Model) : Prop where
  leadsDown : ∀ edge ∈ m.edges, m.LeadsDown edge
  nodup : (m.edges.map (·.2)).Nodup

namespace Planted

theorem empty : Planted Model.empty where
  leadsDown _ hedge := absurd hedge List.not_mem_nil
  nodup := List.nodup_nil

theorem forestFaults_eq (hm : Planted m) : m.forestFaults = .ok [] :=
  forestFaults_eq_nil hm.leadsDown hm.nodup

/-- Versions may be added, and written into, without placing anything. -/
theorem of_edges (hm : Planted m) (hedges : m'.edges = m.edges)
    (hkeep : ∀ {h o}, m.HasOwner h o → m'.HasOwner h o) : Planted m' where
  leadsDown edge hedge := (hm.leadsDown edge (hedges ▸ hedge)).mono hkeep
  nodup := hedges ▸ hm.nodup

/-- A version that is not there yet is placed nowhere. -/
theorem ne_of_mem_edges (hm : Planted m) {edge : Nat × Int} (hedge : edge ∈ m.edges) {h : Nat}
    (hh : m.nextHandle ≤ h) : edge.2 ≠ h := by
  obtain ⟨child, _, hchild, -, hcopy, -⟩ := hm.leadsDown edge hedge
  have := hcopy.lt_nextHandle
  omega

/-- **Placing a copy** that is placed nowhere. -/
theorem place (hm : Planted m) (hcoherent : Coherent m) {child parent : Nat} (offset : Int)
    (hnew : ∀ edge ∈ m.edges, edge.2 ≠ child) (hdown : m.LeadsDown (parent, (child : Int))) :
    Planted (m.place child parent offset) := by
  have hkeep : ∀ {h o}, m.HasOwner h o → (m.place child parent offset).HasOwner h o :=
    fun hh => (hh.modifyVersion child (by exact fun _ => rfl)).modifyVersion parent
      (by exact fun _ => rfl)
  have hedges := edges_place hcoherent child offset hdown.exists_parent
  refine ⟨fun edge hedge => ?_, ?_⟩
  · rcases List.mem_cons.mp (hedges.mem_iff.mp hedge) with rfl | hedge
    · exact hdown.mono hkeep
    · exact (hm.leadsDown edge hedge).mono hkeep
  · rw [(hedges.map (·.2)).nodup_iff, List.map_cons, List.nodup_cons]
    refine ⟨fun hmem => ?_, hm.nodup⟩
    obtain ⟨edge, hedge, heq⟩ := List.mem_map.mp hmem
    exact hnew edge hedge heq

/-! ### Blocks -/

theorem applyCompiled (hm : Planted m) (b : SourceBlock) : Planted (m.applyCompiled b) := by
  have hversions := versions_applyCompiled m b
  refine hm.of_edges ?_ fun hh => ?_
  · exact (edges_congr hversions).trans (edges_addVersion m rfl)
  · obtain ⟨v, hv, ho⟩ := hh.addVersion fun _ => m.newCompiled b
    exact ⟨v, hversions ▸ hv, ho⟩

/-- **The block of a copy** places its copy below the version that owns it. -/
theorem applyInline (hm : Planted m) (hindexed : Indexed created m) (b : SourceBlock) :
    Planted (m.applyInline b).model := by
  refine (inlineStep_applyInline hindexed.coherent).model_induction hm
    (fun owner grown _ hgrown => hm.of_edges (edges_registerCopy hgrown) (·.registerCopy hgrown)) ?_
  intro owner grown parent offset howner hgrown hparent
  have hplanted := hm.of_edges (edges_registerCopy hgrown) (·.registerCopy hgrown)
  have hlatest := hindexed.fileVersion_eq_ok_iff.mp howner
  obtain ⟨hmem, hcompiled⟩ := mem_compiled_iff.mp hlatest.mem
  have hat := hindexed.coherent.getElem?_handle hmem
  have hread := getElem?_noteDeopts_registerCopy hat hgrown
  -- the parent is the owner or one of its copies, and was there before
  have hhas := eq_or_hasOwner_of_parent hindexed.coherent hat hparent
  have hlt : parent < m.nextHandle := by
    rcases hhas with rfl | hcopy
    · exact lt_nextHandle hat
    · exact hcopy.lt_nextHandle
  have hchild : (grown.noteDeopts owner.handle b.deopts).HasOwner m.nextHandle
      (some (owner.handle : Int)) := ⟨_, by rw [hread, if_pos rfl], rfl⟩
  have howner' : m.HasOwner owner.handle none := ⟨owner, hat, by
    simpa [Version.isInline] using hcompiled⟩
  have hcoherent := (hindexed.coherent.registerCopy hat hgrown).of_entries
    (sameEntries_noteDeopts grown owner.handle b.deopts).versions
  refine hplanted.place hcoherent offset (fun edge hedge => ?_) ?_
  · exact hm.ne_of_mem_edges (edges_registerCopy hgrown ▸ hedge) (Nat.le_refl _)
  · exact ⟨m.nextHandle, owner.handle, rfl, hlt, hchild, howner'.registerCopy hgrown,
      hhas.imp_right (·.registerCopy hgrown)⟩

theorem applySource (hm : Planted m) (hindexed : Indexed created m) (b : SourceBlock) :
    Planted (m.applySource b).model := by
  unfold Model.applySource
  split
  · exact hm.applyInline hindexed b
  · exact hm.applyCompiled b

theorem markDeopted (hm : Planted m) : Planted m.markDeopted := by
  have hversions := versions_markDeopted m
  exact hm.of_edges (edges_congr hversions) fun ⟨v, hv, ho⟩ => ⟨v, hversions ▸ hv, ho⟩

/-- Nothing is found wrong with a planted model. -/
theorem requireForest_eq (hm : Planted m) : m.requireForest = { model := m } := by
  rw [requireForest, hm.forestFaults_eq]

end Planted

/-! ### Lists of blocks -/

/-- **A model in order**: it is planted, and its tables say what its arena says. -/
def InOrder (m : Model) : Prop := Planted m ∧ ∃ created, Indexed created m

theorem inOrder_forAll (hm : InOrder m) (blocks : List SourceBlock) :
    InOrder (Progress.forAll applySource m blocks).model :=
  Progress.model_forAll applySource InOrder
    (fun _ b ⟨hplanted, created, hindexed⟩ =>
      ⟨hplanted.applySource hindexed b, introduce created b, hindexed.applySource b⟩) hm

/-- **Source blocks** leave a model in order, wherever the work stops. -/
theorem inOrder_applySources (hm : InOrder m) (blocks : List SourceBlock) :
    InOrder (m.applySources blocks).model :=
  model_applySources
    (fun m ⟨hplanted, created, hindexed⟩ =>
      ⟨hplanted.markDeopted, created, hindexed.of_sameEntries (sameEntries_markDeopted m)⟩)
    (inOrder_forAll hm blocks)

/-- **Only single blocks go wrong**: the check of the forest does not fail, and neither does
marking functions. -/
theorem failure_applySources (hm : InOrder m) (blocks : List SourceBlock) :
    (m.applySources blocks).failure = (Progress.forAll applySource m blocks).failure := by
  have hplanted := (inOrder_forAll hm blocks).1
  rw [applySources]
  generalize Progress.forAll applySource m blocks = p at hplanted
  obtain ⟨built, failure⟩ := p
  cases failure with
  | none => simp only [Progress.andThen, hplanted.requireForest_eq]
  | some e => rfl

/-- **What lists of source blocks leave** that are applied one after the other to a model that
says nothing. A list in which a block goes wrong leaves what was done up to there. -/
def afterSources (lists : List (List SourceBlock)) : Model :=
  lists.foldl (fun m blocks => (m.applySources blocks).model) .empty

theorem inOrder_afterSources (lists : List (List SourceBlock)) : InOrder (afterSources lists) := by
  have hfold : ∀ m : Model, InOrder m →
      InOrder (lists.foldl (fun m blocks => (m.applySources blocks).model) m) := by
    induction lists with
    | nil => exact fun m hm => hm
    | cons blocks lists ih => exact fun m hm => ih _ (inOrder_applySources hm blocks)
  exact hfold .empty ⟨.empty, [], .empty⟩

/-- The block of a copy finds a cycle only where the copy should be placed in itself. -/
theorem InlineStep.placement_of_inlineCycle {p : Progress} (h : InlineStep m b p)
    {detail : String} (hfailure : p.failure = some (.trace (.inlineCycle detail))) :
    ∃ place, b.placement = some place ∧ place.parentId = b.secondId := by
  cases h with
  | unowned _ => simp [unresolved] at hfailure
  | repeated _ _ => simp at hfailure
  | unplaced _ _ _ => simp at hfailure
  | nowhere _ _ _ _ _ _ => simp [unresolved] at hfailure
  | inItself _ _ hplace hself => exact ⟨_, hplace, hself⟩
  | placed _ _ _ _ => simp at hfailure

/-- **A cycle is found** only at the block of a copy that should be placed in itself. -/
theorem exists_of_inlineCycle (hm : InOrder m) {blocks : List SourceBlock} {detail : String}
    (hfailure : (m.applySources blocks).failure = some (.trace (.inlineCycle detail))) :
    ∃ before b after built place, blocks = before ++ b :: after ∧
      (Progress.forAll applySource m before).result = .ok built ∧
      (built.applySource b).failure = some (.trace (.inlineCycle detail)) ∧
      b.isInline = true ∧ b.placement = some place ∧ place.parentId = b.secondId := by
  rw [failure_applySources hm] at hfailure
  obtain ⟨before, b, after, built, rfl, hbefore, hb⟩ :=
    Progress.failure_forAll_eq_some_iff.mp hfailure
  have hbuilt : InOrder built := Progress.model_eq_of_result hbefore ▸ inOrder_forAll hm before
  obtain ⟨-, created, hindexed⟩ := hbuilt
  by_cases hinline : b.isInline = true
  · have hb' := hb
    rw [applySource, if_pos hinline] at hb'
    obtain ⟨place, hplace, hself⟩ :=
      (inlineStep_applyInline hindexed.coherent).placement_of_inlineCycle hb'
    exact ⟨before, b, after, built, place, rfl, hbefore, hb, hinline, hplace, hself⟩
  · rw [applySource, if_neg hinline] at hb
    exact absurd hb (by simp)

/-- **The placements are a forest** after any lists of source blocks, whether or not one of
their blocks went wrong: every edge leads down, each copy stands in one place only, and the
check finds nothing. Whatever list comes next, the check does not stop it; only a copy that
should be placed in itself is called a cycle. -/
theorem placements_forest (lists : List (List SourceBlock)) :
    (∀ edge ∈ (afterSources lists).edges, (afterSources lists).LeadsDown edge) ∧
    ((afterSources lists).edges.map (·.2)).Nodup ∧
    (afterSources lists).forestFaults = .ok [] ∧
    (∀ blocks built, (Progress.forAll applySource (afterSources lists) blocks).result = .ok built →
      built.requireForest = { model := built }) ∧
    ∀ blocks detail, ((afterSources lists).applySources blocks).failure =
        some (.trace (.inlineCycle detail)) →
      ∃ before b after built place, blocks = before ++ b :: after ∧
        (Progress.forAll applySource (afterSources lists) before).result = .ok built ∧
        (built.applySource b).failure = some (.trace (.inlineCycle detail)) ∧
        b.isInline = true ∧ b.placement = some place ∧ place.parentId = b.secondId := by
  have horder := inOrder_afterSources lists
  refine ⟨horder.1.leadsDown, horder.1.nodup, horder.1.forestFaults_eq, ?_,
    fun blocks detail => exists_of_inlineCycle horder⟩
  intro blocks built hbuilt
  have hplanted := Progress.model_eq_of_result hbuilt ▸ (inOrder_forAll horder blocks).1
  exact hplanted.requireForest_eq

/-- A version of `f` with a copy of `g` in it, which has a copy of `h` in it. -/
def nestedCopies : List SourceBlock := [
  { file := "a.js", name := "f", compileId := 0, secondId := 0, code := "x".toList
    deopts := [], placement := none },
  { file := "a.js", name := "g", compileId := 0, secondId := 1, code := "y".toList
    deopts := [], placement := some ⟨1, 0, 0⟩ },
  { file := "a.js", name := "h", compileId := 0, secondId := 2, code := "z".toList
    deopts := [], placement := some ⟨2, 1, 0⟩ }]

/-- A copy of `g` in `f` that should be placed in itself. -/
def selfPlaced : SourceBlock :=
  { file := "a.js", name := "g", compileId := 0, secondId := 3, code := "y".toList
    deopts := [], placement := some ⟨3, 3, 0⟩ }

/-- Two compilations of `f` with their copies; between them, the work stops at a block. -/
def recompiled : List (List SourceBlock) := [nestedCopies, [selfPlaced], nestedCopies]

theorem placements_forest_recompiled :
    (afterSources recompiled).edges = [(0, 1), (1, 2), (4, 5), (5, 6)] ∧
    (∃ built, (Progress.forAll applySource (afterSources recompiled) nestedCopies).result =
      .ok built ∧ built.requireForest = { model := built }) ∧
    ∃ detail, ((afterSources recompiled).applySources [selfPlaced]).failure =
        some (.trace (.inlineCycle detail)) ∧
      ∃ before b after built place, [selfPlaced] = before ++ b :: after ∧
        (Progress.forAll applySource (afterSources recompiled) before).result = .ok built ∧
        (built.applySource b).failure = some (.trace (.inlineCycle detail)) ∧
        b.isInline = true ∧ b.placement = some place ∧ place.parentId = b.secondId := by
  obtain ⟨-, -, -, hcheck, hcycle⟩ := placements_forest recompiled
  have hrun : (Progress.forAll applySource (afterSources recompiled) nestedCopies).result =
      .ok (Progress.forAll applySource (afterSources recompiled) nestedCopies).model := by rfl
  have hfailure : ((afterSources recompiled).applySources [selfPlaced]).failure =
      some (.trace (.inlineCycle s!"{inlineContext selfPlaced} is placed inside itself")) := by rfl
  exact ⟨by rfl, ⟨_, hrun, hcheck _ _ hrun⟩, _, hfailure, hcycle _ _ hfailure⟩

end Model

end InlineReport
