import InlineReport.Proofs.Data.Tally
import InlineReport.Proofs.Model.Below
import InlineReport.Proofs.Model.Reached

/-!
# The copies of a version

A finished model has two ways from a compiled version to its copies: they name it as their owner,
and they are placed below it. An edge never leaves the copies of one version
(`Model.hasOwner_of_transGen`), so that what is below a version is owned by it. The other way
round, a copy may have been registered without a place; but **where every copy is placed**, what a
version owns is just what is below it (`Model.transGen_iff_hasOwner`).

Deoptimisations are those of the code that runs, so **no copy has any** (`Model.CopiesSpared`).
-/

namespace InlineReport

namespace Model

variable {m m' grown : Model} {owner v : Version} {h k : Nat} {o o' : Option Int} {b : SourceBlock}
  {created : List (String × String)} {code ir log : Text}

/-! ### Owners -/

theorem HasOwner.unique (hh : m.HasOwner h o) (hh' : m.HasOwner h o') : o = o' := by
  obtain ⟨v, hv, rfl⟩ := hh
  obtain ⟨w, hw, rfl⟩ := hh'
  rw [Option.some.inj (hv.symm.trans hw)]

theorem hasOwner_iff_of_map (howners : m'.versions.map (·.owner) = m.versions.map (·.owner)) :
    m'.HasOwner h o ↔ m.HasOwner h o := by
  have hread : ∀ m : Model, m.HasOwner h o ↔ (m.versions.map (·.owner))[h]? = some o := fun m => by
    rw [Array.getElem?_map, Option.map_eq_some_iff, HasOwner]
  rw [hread, howners, ← hread]

theorem edges_of_map (hplaces : m'.versions.map (fun v => (v.handle, v.inlines)) =
    m.versions.map fun v => (v.handle, v.inlines)) : m'.edges = m.edges := by
  have hread : ∀ m : Model, m.edges = (m.versions.map fun v => (v.handle, v.inlines)).toList.flatMap
      fun place => place.2.map (place.1, ·) := fun m => by
    rw [Array.toList_map, List.flatMap_map, edges]
  rw [hread, hplaces, ← hread]

/-- An edge from a compiled version leads to a copy of this version. -/
theorem hasOwner_of_edge (hdown : ∀ edge ∈ m.edges, m.LeadsDown edge) (hedge : m.Edge h k)
    (hh : m.HasOwner h none) : m.HasOwner k (some (h : Int)) := by
  obtain ⟨child, owner, hchild, -, hcopy, -, hparent⟩ := hdown _ hedge
  dsimp only at hchild hparent
  obtain rfl : k = child := by omega
  rcases hparent with rfl | hparent
  · exact hcopy
  · exact absurd (hh.unique hparent) (by simp)

/-- An edge from a copy leads to a copy of the same version. -/
theorem HasOwner.of_edge (hdown : ∀ edge ∈ m.edges, m.LeadsDown edge) {parent : Nat}
    (hedge : m.Edge parent k) (hh : m.HasOwner parent (some (h : Int))) :
    m.HasOwner k (some (h : Int)) := by
  obtain ⟨child, owner, hchild, -, hcopy, hcompiled, hparent⟩ := hdown _ hedge
  dsimp only at hchild hparent
  obtain rfl : k = child := by omega
  rcases hparent with rfl | hparent
  · exact absurd (hh.unique hcompiled) (by simp)
  · rwa [hh.unique hparent]

/-- **What is placed below a compiled version** is owned by it. -/
theorem hasOwner_of_transGen (hdown : ∀ edge ∈ m.edges, m.LeadsDown edge)
    (hh : m.HasOwner h none) (hbelow : Relation.TransGen m.Edge h k) :
    m.HasOwner k (some (h : Int)) := by
  induction hbelow with
  | single hedge => exact hasOwner_of_edge hdown hedge hh
  | tail _ hedge ih => exact ih.of_edge hdown hedge

/-- **Every copy is placed.** -/
def AllPlaced (m : Model) : Prop := ∀ h (o : Int), m.HasOwner h (some o) → ∃ parent, m.Edge parent h

/-- A copy that is placed, as are all others, is placed below the version that owns it. -/
theorem transGen_of_hasOwner (hdown : ∀ edge ∈ m.edges, m.LeadsDown edge) (hplaced : AllPlaced m)
    (hk : m.HasOwner k (some (h : Int))) : Relation.TransGen m.Edge h k := by
  -- the way up from a copy goes to versions that were added before
  induction k using Nat.strong_induction_on with
  | _ k ih =>
    obtain ⟨parent, hedge⟩ := hplaced k h hk
    obtain ⟨child, owner, hchild, hlt, hcopy, -, hparent⟩ := hdown _ hedge
    dsimp only at hchild hlt hparent
    obtain rfl : k = child := by omega
    obtain rfl : h = owner := Int.ofNat.inj (Option.some.inj (hk.unique hcopy))
    rcases hparent with rfl | hparent
    · exact .single hedge
    · exact (ih parent hlt hparent).tail hedge

/-- **Where every copy is placed**, a version owns what is placed below it. -/
theorem transGen_iff_hasOwner (hdown : ∀ edge ∈ m.edges, m.LeadsDown edge) (hplaced : AllPlaced m)
    (hh : m.HasOwner h none) : Relation.TransGen m.Edge h k ↔ m.HasOwner k (some (h : Int)) :=
  ⟨hasOwner_of_transGen hdown hh, transGen_of_hasOwner hdown hplaced⟩

/-- The copies that a version owns. -/
def copiesOf (m : Model) (owner : Nat) : List Version :=
  m.copies.filter (·.owner = some (owner : Int))

theorem mem_handles_copiesOf_iff (hm : Coherent m) :
    k ∈ (m.copiesOf h).map (·.handle) ↔ m.HasOwner k (some (h : Int)) := by
  simp only [copiesOf, copies, List.filter_filter, List.mem_map, List.mem_filter,
    Array.mem_toList_iff, Bool.and_eq_true, decide_eq_true_eq]
  constructor
  · rintro ⟨c, ⟨hc, howner, -⟩, rfl⟩
    exact ⟨c, hm.getElem?_handle hc, howner⟩
  · rintro ⟨c, hc, howner⟩
    exact ⟨c, ⟨mem_versions_iff.mpr ⟨k, hc⟩, howner, by rw [Version.isInline, howner]; rfl⟩,
      hm.handle_eq hc⟩

/-! ### Placing every copy -/

theorem map_place {β : Type} (m : Model) (child parent : Nat) (offset : Int) {f : Version → β}
    (hf : ∀ v offset inlines, f { v with offset, inlines } = f v) :
    (m.place child parent offset).versions.map f = m.versions.map f :=
  (map_modifyVersion _ parent fun v => hf v v.offset _).trans
    (map_modifyVersion m child fun v => hf v offset v.inlines)

/-- **The block of a copy that has a place** places its copy, if nothing goes wrong. -/
theorem AllPlaced.applyInline (hm : AllPlaced m) (hindexed : Indexed created m)
    (hplace : b.placement.isSome) (h : (m.applyInline b).result = .ok m') : AllPlaced m' := by
  have hstep := inlineStep_applyInline (b := b) hindexed.coherent
  generalize m.applyInline b = p at h hstep
  cases hstep with
  | unowned _ => exact absurd h (by simp [Progress.result])
  | repeated _ _ => exact absurd h (by simp [Progress.result])
  | unplaced _ _ hnone => exact absurd hplace (by simp [hnone])
  | nowhere _ _ _ _ _ _ => exact absurd h (by simp [Progress.result])
  | inItself _ _ _ _ => exact absurd h (by simp [Progress.result])
  | @placed owner grown place parent howner hgrown _ hparent =>
    obtain rfl := Except.ok.inj h
    have hat := hindexed.coherent.getElem?_of_fileVersion howner
    have hread := getElem?_noteDeopts_registerCopy hat hgrown
    have hcoherent := (hindexed.coherent.registerCopy hat hgrown).of_entries
      (sameEntries_noteDeopts grown owner.handle b.deopts).versions
    have hthere : ∃ v, (grown.noteDeopts owner.handle b.deopts).versions[parent]? = some v := by
      rcases eq_or_hasOwner_of_parent hindexed.coherent hat
        (hparent.imp (·.2) fun h => ⟨_, h.2.2⟩) with rfl | hcopy
      · exact ⟨_, by rw [hread, if_neg (Nat.ne_of_lt (lt_nextHandle hat)), if_pos rfl]⟩
      · obtain ⟨v, hv, -⟩ := hcopy.registerCopy hgrown
        exact ⟨v, hv⟩
    have hedges := edges_place hcoherent m.nextHandle place.offset hthere
    rw [edges_registerCopy hgrown] at hedges
    intro k o hk
    obtain ⟨v, hv, ho⟩ := (hasOwner_iff_of_map (map_place _ _ _ _ fun _ _ _ => rfl)).mp hk
    rw [hread] at hv
    by_cases hnew : k = m.nextHandle
    · exact ⟨parent, hedges.mem_iff.mpr (hnew ▸ List.mem_cons_self)⟩
    -- the other copies were there before, and are placed
    rw [if_neg hnew] at hv
    have hold : m.HasOwner k (some o) := by
      split at hv
      · next heq =>
        obtain rfl := Option.some.inj hv
        exact ⟨owner, heq ▸ hat, ho⟩
      · exact ⟨v, hv, ho⟩
    obtain ⟨parent', hedge⟩ := hm k o hold
    exact ⟨parent', hedges.mem_iff.mpr (List.mem_cons_of_mem _ hedge)⟩

theorem AllPlaced.applyCompiled (hm : AllPlaced m) (b : SourceBlock) :
    AllPlaced (m.applyCompiled b) := by
  have hversions := versions_applyCompiled m b
  rintro k o ⟨v, hv, ho⟩
  rw [hversions, getElem?_addVersion] at hv
  split at hv
  · rw [← Option.some.inj hv] at ho
    exact absurd ho (by simp [newCompiled])
  · obtain ⟨parent, hedge⟩ := hm k o ⟨v, hv, ho⟩
    refine ⟨parent, ?_⟩
    rwa [Edge, edges_congr hversions, edges_addVersion m rfl]

/-- **Source blocks that give each copy a place** leave every copy placed. -/
theorem allPlaced_of_applySources {sources : List SourceBlock}
    (hplaces : ∀ b ∈ sources, b.isInline = true → b.placement.isSome)
    (h : (Model.empty.applySources sources).result = .ok m) : AllPlaced m := by
  obtain ⟨built, hrun, rfl⟩ := exists_of_applySources h
  have hversions := versions_markDeopted built
  have hbuilt : (∃ created, Indexed created built) ∧
      ((∀ b ∈ sources, b.isInline = true → b.placement.isSome) → AllPlaced built) := by
    refine Progress.forAll_items_induction Model.applySource (fun sources m =>
      (∃ created, Indexed created m) ∧
        ((∀ b ∈ sources, b.isInline = true → b.placement.isSome) → AllPlaced m)) ?_
      ⟨⟨[], .empty⟩, fun _ _ _ ⟨_, hv, _⟩ => absurd hv (by simp [Model.empty])⟩ hrun
    rintro before m b m' ⟨⟨created, hindexed⟩, hplaced⟩ hstep
    refine ⟨⟨_, Progress.model_eq_of_result hstep ▸ hindexed.applySource b⟩, fun hplaces => ?_⟩
    have hm := hplaced fun b hb => hplaces b (List.mem_append_left _ hb)
    have hplace := hplaces b (List.mem_append_right _ (List.mem_singleton_self b))
    rw [applySource] at hstep
    split at hstep
    · next hinline => exact hm.applyInline hindexed (hplace hinline) hstep
    · obtain rfl := Except.ok.inj hstep
      exact hm.applyCompiled b
  intro k o hk
  have howners := congrArg (Array.map Version.owner) hversions
  obtain ⟨parent, hedge⟩ := hbuilt.2 hplaces k o ((hasOwner_iff_of_map howners).mp hk)
  refine ⟨parent, ?_⟩
  rwa [Edge, edges_congr hversions]

/-! ### Deoptimisations -/

/-- **No copy has deoptimisations**: those of its block are noted with the version that owns it. -/
def CopiesSpared (m : Model) : Prop := ∀ v ∈ m.versions, v.isInline = true → v.deopts = []

theorem CopiesSpared.of_map (hm : CopiesSpared m)
    (hmap : m'.versions.map (fun v => (v.owner, v.deopts)) =
      m.versions.map fun v => (v.owner, v.deopts)) : CopiesSpared m' := by
  intro v hv hinline
  have hmem : (v.owner, v.deopts) ∈ m.versions.map fun v => (v.owner, v.deopts) :=
    hmap ▸ Array.mem_map.mpr ⟨v, hv, rfl⟩
  obtain ⟨w, hw, heq⟩ := Array.mem_map.mp hmem
  obtain ⟨howner, hdeopts⟩ := Prod.mk.inj heq
  rw [← hdeopts]
  exact hm w hw (by rwa [Version.isInline, howner])

theorem CopiesSpared.applySource (hm : CopiesSpared m) (hindexed : Indexed created m)
    (b : SourceBlock) : CopiesSpared (m.applySource b).model := by
  unfold Model.applySource
  split
  · have hcopy : ∀ owner grown, m.fileVersion b.file b.compileId = .ok owner →
        m.registerCopy owner b.name b.secondId b.code = .ok grown →
        CopiesSpared (grown.noteDeopts owner.handle b.deopts) := by
      intro owner grown howner hgrown v hv hinline
      obtain ⟨hmem, hcompiled⟩ := mem_compiled_iff.mp (hindexed.fileVersion_eq_ok_iff.mp howner).mem
      obtain ⟨k, hv⟩ := mem_versions_iff.mp hv
      rw [getElem?_noteDeopts_registerCopy (hindexed.coherent.getElem?_handle hmem) hgrown] at hv
      split at hv
      · rw [← Option.some.inj hv]
        rfl
      split at hv
      · -- the owner is a compiled version
        rw [← Option.some.inj hv] at hinline
        exact absurd (hcompiled.symm.trans hinline) (by simp)
      · exact hm v (mem_versions_iff.mpr ⟨k, hv⟩) hinline
    refine (inlineStep_applyInline hindexed.coherent).model_induction hm hcopy ?_
    intro owner grown parent offset howner hgrown _
    exact (hcopy owner grown howner hgrown).of_map (map_place _ _ _ _ fun _ _ _ => rfl)
  · intro v hv hinline
    obtain ⟨k, hv⟩ := mem_versions_iff.mp hv
    rw [versions_applyCompiled, getElem?_addVersion] at hv
    split at hv
    · rw [← Option.some.inj hv] at hinline
      exact absurd hinline (by simp [newCompiled, Version.isInline])
    · exact hm v (mem_versions_iff.mpr ⟨k, hv⟩) hinline

theorem copiesSpared_of_applySources {sources : List SourceBlock}
    (h : (Model.empty.applySources sources).result = .ok m) : CopiesSpared m := by
  obtain ⟨built, hrun, rfl⟩ := exists_of_applySources h
  have hbuilt : CopiesSpared built ∧ ∃ created, Indexed created built := by
    rw [← Progress.model_eq_of_result hrun]
    refine Progress.model_forAll Model.applySource
      (fun m => CopiesSpared m ∧ ∃ created, Indexed created m) ?_ ⟨?_, [], .empty⟩
    · rintro m b ⟨hspared, created, hindexed⟩
      exact ⟨hspared.applySource hindexed b, _, hindexed.applySource b⟩
    · exact fun v hv => absurd hv (by simp [Model.empty])
  exact hbuilt.1.of_map (by rw [versions_markDeopted])

/-! ### Finished models -/

/-- **A finished model**: its placements lead down, its tables say what its arena says, and no
copy has deoptimisations. -/
structure Finished (m : Model) : Prop where
  planted : Planted m
  indexed : ∃ created, Indexed created m
  spared : CopiesSpared m

/-- A model is what its source blocks have made, but for operations and what is noted with
functions. -/
theorem exists_sources_of_buildModel (h : buildModel code ir log = .ok m) :
    ∃ sources built, scanSources code = .ok sources ∧
      (Model.empty.applySources sources).result = .ok built ∧ SameEntries built m ∧
      ∀ {β : Type} (f : Version → β), (∀ v calls, f { v with runtime := calls } = f v) →
        m.versions.map f = built.versions.map f := by
  obtain ⟨sources, built, blocks, routed, hscan, hbuilt, -, hrouted, rfl⟩ := exists_of_buildModel h
  have hgrown := runtimeGrown_applyIrs built blocks
  rw [Progress.model_eq_of_result hrouted] at hgrown
  refine ⟨sources, built, hscan, hbuilt,
    hgrown.sameEntries.trans (sameEntries_applyRefusals routed _), fun f hf => ?_⟩
  rw [versions_applyRefusals, hgrown.map_versions hf]

/-- **A model of a trace** is finished. -/
theorem finished_of_buildModel (h : buildModel code ir log = .ok m) : Finished m := by
  obtain ⟨sources, built, -, hbuilt, hsame, hmap⟩ := exists_sources_of_buildModel h
  obtain ⟨hplanted, created, hindexed⟩ : InOrder built :=
    Progress.model_eq_of_result hbuilt ▸
      inOrder_applySources ⟨.empty, [], .empty⟩ sources
  have howners {h o} : built.HasOwner h o → m.HasOwner h o :=
    (hasOwner_iff_of_map (hmap _ fun _ _ => rfl)).mpr
  exact
    { planted := hplanted.of_edges (edges_of_map (hmap _ fun _ _ => rfl)) howners
      indexed := ⟨created, hindexed.of_sameEntries hsame⟩
      spared := (copiesSpared_of_applySources hbuilt).of_map (hmap _ fun _ _ => rfl) }

/-- **Where every block of a copy has a place**, every copy of the model is placed. -/
theorem allPlaced_of_buildModel (h : buildModel code ir log = .ok m) {sources : List SourceBlock}
    (hscan : scanSources code = .ok sources)
    (hplaces : ∀ b ∈ sources, b.isInline = true → b.placement.isSome) : AllPlaced m := by
  obtain ⟨sources', built, hscan', hbuilt, -, hmap⟩ := exists_sources_of_buildModel h
  obtain rfl := Except.ok.inj (hscan.symm.trans hscan')
  intro k o hk
  rw [hasOwner_iff_of_map (hmap _ fun _ _ => rfl)] at hk
  obtain ⟨parent, hedge⟩ := allPlaced_of_applySources hplaces hbuilt k o hk
  refine ⟨parent, ?_⟩
  rwa [Edge, edges_of_map (hmap _ fun _ _ => rfl)]

namespace Finished

theorem coherent (hm : Finished m) : Coherent m := hm.indexed.elim fun _ h => h.coherent

theorem validHandles (hm : Finished m) : m.ValidHandles where
  handle_eq := hm.coherent.handle_eq
  child_lt edge hedge := (hm.planted.leadsDown edge hedge).exists_child

theorem isForest (hm : Finished m) : m.IsForest :=
  isForest_of_leadsDown hm.planted.leadsDown hm.planted.nodup

theorem hasOwner_of_mem_compiled (hm : Finished m) (hv : v ∈ m.compiled) :
    m.HasOwner v.handle none := by
  obtain ⟨hmem, hcompiled⟩ := mem_compiled_iff.mp hv
  exact ⟨v, hm.coherent.getElem?_handle hmem, by simpa [Version.isInline] using hcompiled⟩

/-- **Where every copy is placed**, there are as many versions below a version as it owns. -/
theorem length_below (hm : Finished m) (hplaced : AllPlaced m) (hv : v ∈ m.compiled)
    {below : List Version} (hnodup : (below.map (·.handle)).Nodup)
    (hbelow : ∀ k, k ∈ below.map (·.handle) ↔ Relation.TransGen m.Edge v.handle k) :
    below.length = (m.copiesOf v.handle).length := by
  have hcopies : ((m.copiesOf v.handle).map (·.handle)).Nodup := by
    rw [copiesOf, copies, List.filter_filter]
    exact hm.coherent.nodup_handles_filter _
  have hperm : (below.map (·.handle)).Perm ((m.copiesOf v.handle).map (·.handle)) := by
    refine (List.perm_ext_iff_of_nodup hnodup hcopies).mpr fun k => ?_
    rw [hbelow, mem_handles_copiesOf_iff hm.coherent]
    exact transGen_iff_hasOwner hm.planted.leadsDown hplaced (hm.hasOwner_of_mem_compiled hv)
  simpa only [List.length_map] using hperm.length_eq

/-- **Every copy is owned once**, where every copy is placed. -/
theorem sum_copiesOf (hm : Finished m) (hplaced : AllPlaced m) :
    (m.compiled.map fun v => (m.copiesOf v.handle).length).sum = m.copies.length := by
  have hkeys : (m.compiled.map fun v => some (v.handle : Int)).Nodup := by
    have hhandles : (m.compiled.map (·.handle)).Nodup := hm.coherent.nodup_handles_filter _
    have hmap := List.Nodup.map (f := fun h : Nat => some (h : Int)) (fun _ _ heq =>
      Int.ofNat.inj (Option.some.inj heq)) hhandles
    rwa [List.map_map] at hmap
  have hcount := sum_length_filter hkeys (f := Version.owner) (l := m.copies) fun c hc => ?_
  · rwa [List.map_map] at hcount
  -- a copy is placed, and so its owner is a compiled version
  obtain ⟨hmem, hinline⟩ := List.mem_filter.mp hc
  obtain ⟨o, ho⟩ := Option.isSome_iff_exists.mp hinline
  have hhas : m.HasOwner c.handle (some o) :=
    ⟨c, hm.coherent.getElem?_handle (Array.mem_toList_iff.mp hmem), ho⟩
  obtain ⟨parent, hedge⟩ := hplaced _ _ hhas
  obtain ⟨child, owner, hchild, -, hcopy, ⟨w, hw, hcompiled⟩, -⟩ := hm.planted.leadsDown _ hedge
  dsimp only at hchild
  obtain rfl : c.handle = child := Int.ofNat.inj hchild
  rw [hhas.unique hcopy] at ho
  have hmem : w ∈ m.compiled := mem_compiled_iff.mpr
    ⟨mem_versions_iff.mpr ⟨_, hw⟩, by rw [Version.isInline, hcompiled]; rfl⟩
  exact List.mem_map.mpr ⟨w, hmem, by rw [hm.coherent.handle_eq hw, ho]⟩

/-- **No deoptimisation** is that of a copy. -/
theorem flatMap_deopts_compiled (hm : Finished m) :
    m.compiled.flatMap (·.deopts) = m.versions.toList.flatMap (·.deopts) :=
  flatMap_filter fun v hv hcompiled =>
    hm.spared v (Array.mem_toList_iff.mp hv) (by simpa using hcompiled)

end Finished

end Model

end InlineReport
