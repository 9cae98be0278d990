import InlineReport.Proofs.Model.ForestCheck

/-!
# When placements are a forest

The placements are a forest if every edge leads down, from a version to a copy that was added
after it, and no two edges lead to the same copy (`Model.isForest_of_leadsDown`). For then
whatever is placed below a version has been added after it, so that no version is placed below
itself (`Model.lt_of_transGen_edge`).
-/

namespace InlineReport

namespace Model

variable {m m' : Model} {h : Nat} {o : Option Int} {edge : Nat × Int}

/-! ### Owners -/

/-- A version is there, with this owner. -/
def HasOwner (m : Model) (handle : Nat) (owner : Option Int) : Prop :=
  ∃ v, m.versions[handle]? = some v ∧ v.owner = owner

theorem HasOwner.lt_nextHandle (hh : m.HasOwner h o) : h < m.nextHandle := by
  obtain ⟨v, hv, -⟩ := hh
  exact Model.lt_nextHandle hv

theorem HasOwner.addVersion (hh : m.HasOwner h o) (content : Nat → Version) :
    (m.addVersion content).HasOwner h o := by
  obtain ⟨v, hv, ho⟩ := hh
  refine ⟨v, ?_, ho⟩
  rw [getElem?_addVersion, if_neg (Nat.ne_of_lt (Model.lt_nextHandle hv)), hv]

theorem HasOwner.modifyVersion (hh : m.HasOwner h o) (handle : Nat) {f : Version → Version}
    (hf : ∀ v, (f v).owner = v.owner) : (m.modifyVersion handle f).HasOwner h o := by
  obtain ⟨v, hv, ho⟩ := hh
  rw [HasOwner, getElem?_modifyVersion]
  split
  · exact ⟨f v, by rw [hv, Option.map_some], (hf v).trans ho⟩
  · exact ⟨v, hv, ho⟩

/-! ### Edges -/

/-- **An edge that leads down**: from a parent to a copy that was added after it. The owner of
the copy is a compiled version, and the parent is this version or another copy that it owns. -/
def LeadsDown (m : Model) (edge : Nat × Int) : Prop :=
  ∃ child owner : Nat, edge.2 = child ∧ edge.1 < child ∧
    m.HasOwner child (some owner) ∧ m.HasOwner owner none ∧
      (edge.1 = owner ∨ m.HasOwner edge.1 (some owner))

theorem LeadsDown.mono (hkeep : ∀ {h o}, m.HasOwner h o → m'.HasOwner h o)
    (hedge : m.LeadsDown edge) : m'.LeadsDown edge := by
  obtain ⟨child, owner, hchild, hlt, hcopy, hcompiled, hparent⟩ := hedge
  exact ⟨child, owner, hchild, hlt, hkeep hcopy, hkeep hcompiled, hparent.imp_right hkeep⟩

/-- The parent of such an edge is there. -/
theorem LeadsDown.exists_parent (hedge : m.LeadsDown edge) :
    ∃ v, m.versions[edge.1]? = some v := by
  obtain ⟨_, owner, -, -, -, ⟨o, ho, -⟩, rfl | ⟨v, hv, -⟩⟩ := hedge
  · exact ⟨o, ho⟩
  · exact ⟨v, hv⟩

theorem edges_congr (hversions : m'.versions = m.versions) : m'.edges = m.edges := by
  rw [edges, hversions, edges]

/-- A version in which nothing stands adds no edges. -/
theorem edges_addVersion (m : Model) {content : Nat → Version}
    (hnew : (content m.nextHandle).inlines = []) : (m.addVersion content).edges = m.edges := by
  rw [edges, addVersion, Array.toList_push, List.flatMap_append, List.flatMap_singleton, hnew,
    List.map_nil, List.append_nil, edges]

theorem edges_modifyVersion (m : Model) (handle : Nat) {f : Version → Version}
    (hf : ∀ v, (f v).handle = v.handle ∧ (f v).inlines = v.inlines) :
    (m.modifyVersion handle f).edges = m.edges := by
  rw [edges, modifyVersion, Array.toList_modify]
  refine flatMap_modify (fun v => ?_) _ _
  rw [(hf v).1, (hf v).2]

/-- **Placing a copy** adds one edge. -/
theorem edges_append_inlines {parent : Version} (hparent : m.versions[h]? = some parent)
    (hhandle : parent.handle = h) (child : Nat) :
    (m.modifyVersion h fun v => { v with inlines := v.inlines ++ [(child : Int)] }).edges.Perm
      ((h, (child : Int)) :: m.edges) := by
  rw [edges, modifyVersion, Array.toList_modify]
  refine flatMap_modify_perm (a := parent) ?_ ?_
  · rwa [Array.getElem?_toList]
  · rw [List.map_append, List.map_singleton, hhandle]

/-! ### Edges that lead down make a forest -/

/-- What such an edge leads to is there. -/
theorem LeadsDown.exists_child (hedge : m.LeadsDown edge) :
    ∃ child : Nat, edge.2 = child ∧ child < m.nextHandle := by
  obtain ⟨child, _, hchild, -, hcopy, -⟩ := hedge
  exact ⟨child, hchild, hcopy.lt_nextHandle⟩

theorem LeadsDown.refersToCopy (hedge : m.LeadsDown edge) : m.RefersToCopy edge.2 := by
  obtain ⟨child, owner, hchild, -, ⟨v, hv, howner⟩, -⟩ := hedge
  intro w hw
  rw [hchild, version_eq_ok_iff, hv] at hw
  rw [← Option.some.inj hw, Version.isInline, howner, Option.isSome_some]

/-- **A version is added before all that is placed below it.** -/
theorem lt_of_transGen_edge (hdown : ∀ edge ∈ m.edges, m.LeadsDown edge) {h k : Nat}
    (hbelow : Relation.TransGen m.Edge h k) : h < k := by
  have hlt : ∀ {h k : Nat}, m.Edge h k → h < k := fun hedge => by
    obtain ⟨child, -, hchild, hlt, -⟩ := hdown _ hedge
    dsimp only at hchild hlt
    omega
  induction hbelow with
  | single hedge => exact hlt hedge
  | tail _ hedge ih => exact Nat.lt_trans ih (hlt hedge)

/-- **A forest**: edges that lead down to different copies. -/
theorem isForest_of_leadsDown (hdown : ∀ edge ∈ m.edges, m.LeadsDown edge)
    (hnodup : (m.edges.map (·.2)).Nodup) : m.IsForest where
  nodup := hnodup
  refersToCopy edge hedge := (hdown edge hedge).refersToCopy
  acyclic h hcycle := Nat.lt_irrefl h (lt_of_transGen_edge hdown hcycle)

theorem forestFaults_eq_nil (hdown : ∀ edge ∈ m.edges, m.LeadsDown edge)
    (hnodup : (m.edges.map (·.2)).Nodup) : m.forestFaults = .ok [] :=
  (isForest_of_leadsDown hdown hnodup).forestFaults_eq fun edge hedge =>
    (hdown edge hedge).exists_child

end Model

end InlineReport
