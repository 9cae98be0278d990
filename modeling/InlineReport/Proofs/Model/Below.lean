import Mathlib.Data.Finset.Card
import Mathlib.Data.Finset.Range
import InlineReport.Proofs.Model.ForestCheck

/-!
# What is placed below a version

Whatever goes down from a version to the copies placed in it, and from them to the copies placed
in those, comes to an end in a forest: with each step there is less below
(`Model.handlesBelow_ssubset`), so that a way down is no longer than there are versions. This is
said once, as an induction (`Model.IsForest.depth_induction`).

**The preorder** of the copies below a version (`Model.InPreorder`) has each copy before the ones
below it. In a forest it lists what can be reached by edges (`Model.InPreorder.mem_handles_iff`)
and no copy twice (`Model.InPreorder.nodup_handles`). **The walk with a stack** finds it
(`Model.InPreorder.walkDown_append`): whatever waits on the stack, it first goes through the
preorder of what lies on top.
-/

namespace InlineReport

namespace Model

variable {m : Model} {v w : Version} {h c : Nat}

/-! ### Edges of valid models -/

theorem mem_edges_iff {number : Int} :
    (h, number) ∈ m.edges ↔ ∃ v ∈ m.versions, v.handle = h ∧ number ∈ v.inlines := by
  simp only [edges, List.mem_flatMap, List.mem_map, Array.mem_toList_iff, Prod.mk.injEq]
  constructor
  · rintro ⟨v, hv, number, hnumber, rfl, rfl⟩
    exact ⟨v, hv, rfl, hnumber⟩
  · rintro ⟨v, hv, rfl, hnumber⟩
    exact ⟨v, hv, number, hnumber, rfl, rfl⟩

namespace ValidHandles

theorem getElem?_handle (hm : m.ValidHandles) (hv : v ∈ m.versions) :
    m.versions[v.handle]? = some v := by
  obtain ⟨k, hk⟩ := mem_versions_iff.mp hv
  rwa [hm.handle_eq hk]

/-- The edges from a version lead to what is placed in it. -/
theorem edge_iff (hm : m.ValidHandles) (hv : m.versions[h]? = some v) :
    m.Edge h c ↔ (c : Int) ∈ v.inlines := by
  rw [Edge, mem_edges_iff]
  constructor
  · rintro ⟨w, hw, rfl, hmem⟩
    rw [hm.getElem?_handle hw] at hv
    rwa [← Option.some.inj hv]
  · exact fun hmem => ⟨v, mem_versions_iff.mpr ⟨h, hv⟩, hm.handle_eq hv, hmem⟩

/-- What is placed in a version is a version. -/
theorem exists_child (hm : m.ValidHandles) (hv : m.versions[h]? = some v) {number : Int}
    (hmem : number ∈ v.inlines) :
    ∃ (c : Nat) (w : Version), number = c ∧ m.Edge h c ∧ m.versions[c]? = some w := by
  have hedge : (h, number) ∈ m.edges :=
    mem_edges_iff.mpr ⟨v, mem_versions_iff.mpr ⟨h, hv⟩, hm.handle_eq hv, hmem⟩
  obtain ⟨c, hc, hlt⟩ := hm.child_lt _ hedge
  dsimp only at hc
  subst hc
  exact ⟨c, m.versions[c], rfl, hedge, Array.getElem?_eq_getElem hlt⟩

/-- What is placed in a version is referred to by its handle. -/
theorem eq_handle (hm : m.ValidHandles) {number : Int} (hedge : (h, number) ∈ m.edges)
    (hv : m.version number = .ok v) : number = v.handle := by
  obtain ⟨c, hc, -⟩ := hm.child_lt _ hedge
  dsimp only at hc
  rw [hc] at hv ⊢
  rw [hm.handle_eq (version_eq_ok_iff.mp hv)]

theorem lt_of_edge (hm : m.ValidHandles) (hedge : m.Edge h c) : c < m.nextHandle := by
  obtain ⟨k, hk, hlt⟩ := hm.child_lt _ hedge
  dsimp only at hk
  omega

/-- What is below a version is placed in it, or below what is placed in it. -/
theorem transGen_iff (hm : m.ValidHandles) (hv : m.versions[h]? = some v) {k : Nat} :
    Relation.TransGen m.Edge h k ↔ ∃ number ∈ v.inlines, ∃ w, m.version number = .ok w ∧
      Relation.ReflTransGen m.Edge w.handle k := by
  rw [Relation.TransGen.head'_iff]
  constructor
  · rintro ⟨c, hedge, hck⟩
    have hw := Array.getElem?_eq_getElem (hm.lt_of_edge hedge)
    exact ⟨c, (hm.edge_iff hv).mp hedge, _, version_eq_ok_iff.mpr hw, (hm.handle_eq hw).symm ▸ hck⟩
  · rintro ⟨number, hmem, w, hw, hwk⟩
    obtain ⟨c, w', rfl, hedge, hw'⟩ := hm.exists_child hv hmem
    obtain rfl := Except.ok.inj (hw.symm.trans (version_eq_ok_iff.mpr hw'))
    exact ⟨c, hedge, hm.handle_eq hw' ▸ hwk⟩

end ValidHandles

/-! ### Going down -/

open Classical in
/-- The handles of what is placed below a version. -/
noncomputable def handlesBelow (m : Model) (h : Nat) : Finset Nat :=
  (Finset.range m.nextHandle).filter (Relation.TransGen m.Edge h)

theorem mem_handlesBelow_iff {k : Nat} :
    k ∈ m.handlesBelow h ↔ k < m.nextHandle ∧ Relation.TransGen m.Edge h k := by
  simp only [handlesBelow, Finset.mem_filter, Finset.mem_range]

/-- **With each step down there is less below.** -/
theorem handlesBelow_ssubset (hm : m.ValidHandles) (hforest : m.IsForest) (hedge : m.Edge h c) :
    m.handlesBelow c ⊂ m.handlesBelow h := by
  refine (Finset.ssubset_iff_of_subset fun k hk => ?_).mpr ⟨c, ?_, ?_⟩
  · obtain ⟨hlt, hbelow⟩ := mem_handlesBelow_iff.mp hk
    exact mem_handlesBelow_iff.mpr ⟨hlt, .head hedge hbelow⟩
  · exact mem_handlesBelow_iff.mpr ⟨hm.lt_of_edge hedge, .single hedge⟩
  · exact fun hself => hforest.acyclic c (mem_handlesBelow_iff.mp hself).2

/-- **Induction down a forest**, with a bound on the depth: what holds of a version with one level
more than of the copies in it holds of every version with as many levels as there are versions,
or more. -/
theorem IsForest.depth_induction (hforest : m.IsForest) (hm : m.ValidHandles)
    {motive : Nat → Nat → Prop}
    (step : ∀ depth h v, m.versions[h]? = some v → (∀ c, m.Edge h c → motive depth c) →
      motive (depth + 1) h)
    (hh : h < m.nextHandle) {depth : Nat} (hdepth : m.depthBound ≤ depth) : motive depth h := by
  have hcard : ∀ depth h, h < m.nextHandle → (m.handlesBelow h).card < depth →
      motive depth h := by
    intro depth
    induction depth with
    | zero => exact fun h _ hlt => absurd hlt (Nat.not_lt_zero _)
    | succ depth ih =>
      intro h hh hlt
      refine step depth h _ (Array.getElem?_eq_getElem hh) fun c hedge => ?_
      have hless := Finset.card_lt_card (handlesBelow_ssubset hm hforest hedge)
      exact ih c (hm.lt_of_edge hedge) (by omega)
  refine hcard depth h hh ?_
  have hle : (m.handlesBelow h).card ≤ m.nextHandle := by
    have hsubset : m.handlesBelow h ⊆ Finset.range m.nextHandle := fun k hk =>
      Finset.mem_range.mpr (mem_handlesBelow_iff.mp hk).1
    rw [← Finset.card_range m.nextHandle]
    exact Finset.card_le_card hsubset
  rw [depthBound, ← nextHandle] at hdepth
  omega

/-! ### The preorder -/

/-- **The preorder** of what some numbers refer to: each version, then what is placed below it, and
then the next one. -/
inductive InPreorder (m : Model) : List Int → List Version → Prop
  | nil : InPreorder m [] []
  | cons {child more v below rest} (hv : m.version child = .ok v)
    (hbelow : InPreorder m v.inlines below) (hrest : InPreorder m more rest) :
    InPreorder m (child :: more) (v :: below ++ rest)

theorem exists_inPreorder_of_forall {numbers : List Int} {bound : Nat}
    (h : ∀ number ∈ numbers, ∃ v below, m.version number = .ok v ∧
      InPreorder m v.inlines below ∧ below.length < bound) :
    ∃ versions, InPreorder m numbers versions ∧ versions.length ≤ numbers.length * bound := by
  induction numbers with
  | nil => exact ⟨[], .nil, Nat.zero_le _⟩
  | cons number more ih =>
    obtain ⟨⟨v, below, hv, hbelow, hlt⟩, hmore⟩ := List.forall_mem_cons.mp h
    obtain ⟨rest, hrest, hle⟩ := ih hmore
    refine ⟨_, .cons hv hbelow hrest, ?_⟩
    simp only [List.length_append, List.length_cons, Nat.succ_mul]
    omega

/-- No version has more copies in it than there are edges. -/
theorem length_inlines_le (hv : v ∈ m.versions) : v.inlines.length ≤ m.edges.length := by
  have hsublist : (v.inlines.map (v.handle, ·)).Sublist m.edges := by
    rw [edges, List.flatMap_def]
    exact List.sublist_flatten_of_mem (List.mem_map_of_mem (Array.mem_toList_iff.mpr hv))
  simpa using hsublist.length_le

/-- **In a forest** there is a preorder of what is placed in a version, and it has less versions
than a walk may take steps. -/
theorem IsForest.exists_inPreorder (hforest : m.IsForest) (hm : m.ValidHandles)
    (hv : m.versions[h]? = some v) :
    ∃ below, InPreorder m v.inlines below ∧ below.length < m.stepBound := by
  refine hforest.depth_induction hm (motive := fun depth h => ∀ v, m.versions[h]? = some v →
    ∃ below, InPreorder m v.inlines below ∧ below.length < (m.edges.length + 1) ^ depth) ?_
    (lt_nextHandle hv) (Nat.le_refl _) v hv
  intro depth h v hv ih w hw
  obtain rfl := Option.some.inj (hv.symm.trans hw)
  obtain ⟨below, hbelow, hle⟩ := exists_inPreorder_of_forall fun number hnumber => by
    obtain ⟨c, w, rfl, hedge, hw⟩ := hm.exists_child hv hnumber
    obtain ⟨below, hbelow, hlt⟩ := ih c hedge w hw
    exact ⟨w, below, version_eq_ok_iff.mpr hw, hbelow, hlt⟩
  refine ⟨below, hbelow, ?_⟩
  have hinlines := length_inlines_le (mem_versions_iff.mpr ⟨h, hv⟩)
  calc below.length ≤ v.inlines.length * (m.edges.length + 1) ^ depth := hle
    _ ≤ m.edges.length * (m.edges.length + 1) ^ depth := Nat.mul_le_mul_right _ hinlines
    _ < (m.edges.length + 1) * (m.edges.length + 1) ^ depth :=
      Nat.mul_lt_mul_of_pos_right (Nat.lt_succ_self _) (Nat.pow_pos (Nat.succ_pos _))
    _ = (m.edges.length + 1) ^ (depth + 1) := (Nat.pow_succ').symm

/-- Nothing is placed twice in a version. -/
theorem IsForest.nodup_inlines (hforest : m.IsForest) (hv : v ∈ m.versions) :
    v.inlines.Nodup := by
  have hnodup := hforest.nodup
  rw [edges, List.map_flatMap, List.nodup_flatMap] at hnodup
  have hinlines := hnodup.1 v (Array.mem_toList_iff.mpr hv)
  rwa [List.map_map, show Prod.snd ∘ (v.handle, ·) = (id : Int → Int) from rfl,
    List.map_id] at hinlines

/-- A version has one parent at most. -/
theorem IsForest.parent_unique (hforest : m.IsForest) {p q : Nat} (hp : m.Edge p c)
    (hq : m.Edge q c) : p = q :=
  congrArg Prod.fst (List.inj_on_of_nodup_map hforest.nodup hp hq rfl)

/-- **What is placed next to each other** has nothing below it in common. -/
theorem IsForest.eq_of_siblings (hforest : m.IsForest) {p a b k : Nat} (ha : m.Edge p a)
    (hb : m.Edge p b) (hak : Relation.ReflTransGen m.Edge a k)
    (hbk : Relation.ReflTransGen m.Edge b k) : a = b := by
  -- of two versions on the way up from `k` one is above the other, and so above its parent `p`
  have hcomparable : ∀ {a b}, m.Edge p a → m.Edge p b → Relation.ReflTransGen m.Edge a b →
      a = b := fun {a b} ha hb hab => by
    rcases Relation.ReflTransGen.cases_tail hab with heq | ⟨q, haq, hq⟩
    · exact heq.symm
    · rw [hforest.parent_unique hq hb] at haq
      exact absurd (Relation.TransGen.head' ha haq) (hforest.acyclic p)
  have hunique : Relator.RightUnique (Function.swap m.Edge) :=
    fun _ _ _ hp hq => hforest.parent_unique hp hq
  rcases Relation.ReflTransGen.total_of_right_unique hunique hak.swap hbk.swap with hab | hba
  · exact (hcomparable hb ha hab.swap).symm
  · exact hcomparable ha hb hba.swap

namespace InPreorder

variable {numbers : List Int} {versions : List Version}

/-- **The walk with a stack** goes through the preorder of what lies on top, in as many steps as
there are versions in it. -/
theorem walkDown_append (h : InPreorder m numbers versions) (steps : Nat) (met : List Version)
    (stack : List Int) :
    m.walkDown (versions.length + steps) met (numbers ++ stack) =
      m.walkDown steps (versions.reverse ++ met) stack := by
  induction h generalizing steps met stack with
  | nil => rw [List.length_nil, Nat.zero_add, List.nil_append, List.reverse_nil, List.nil_append]
  | @cons number more v below rest hv _ _ ihbelow ihrest =>
    have hlength : (v :: below ++ rest).length + steps =
        below.length + (rest.length + steps) + 1 := by
      simp only [List.length_append, List.length_cons]
      omega
    rw [hlength, List.cons_append, walkDown, hv]
    change m.walkDown _ (v :: met) (v.inlines ++ (more ++ stack)) = _
    rw [ihbelow, ihrest, List.reverse_append, List.reverse_cons]
    simp only [List.append_assoc, List.singleton_append]

/-- So it comes to an end, and has met just these versions. -/
theorem walkDown_eq (h : InPreorder m numbers versions) {steps : Nat}
    (hsteps : versions.length ≤ steps) : m.walkDown steps [] numbers = .ok versions := by
  have happend := h.walkDown_append (steps - versions.length) [] []
  rw [List.append_nil, List.append_nil, Nat.add_sub_of_le hsteps] at happend
  rw [happend, walkDown, List.reverse_reverse]

theorem descendants_eq (hv : m.versions[h]? = some v) (hbelow : InPreorder m v.inlines versions)
    (hlt : versions.length < m.stepBound) : m.descendants h = .ok versions := by
  rw [descendants, version_eq_ok_iff.mpr hv]
  exact hbelow.walkDown_eq (Nat.le_of_lt hlt)

/-- The versions of a preorder are versions of the model. -/
theorem mem_versions (h : InPreorder m numbers versions) (hw : w ∈ versions) :
    w ∈ m.versions := by
  induction h with
  | nil => exact absurd hw List.not_mem_nil
  | cons hv _ _ ihbelow ihrest =>
    rcases List.mem_append.mp hw with hw | hw
    · rcases List.mem_cons.mp hw with rfl | hw
      · exact mem_of_version hv
      · exact ihbelow hw
    · exact ihrest hw

/-- **The preorder lists** what its numbers refer to, and what is below that. -/
theorem mem_handles_iff (hm : m.ValidHandles) (h : InPreorder m numbers versions) {k : Nat} :
    k ∈ versions.map (·.handle) ↔ ∃ number ∈ numbers, ∃ w, m.version number = .ok w ∧
      Relation.ReflTransGen m.Edge w.handle k := by
  induction h with
  | nil => simp
  | @cons number more v below rest hv _ _ ihbelow ihrest =>
    have hhere : k ∈ (v :: below).map (·.handle) ↔ Relation.ReflTransGen m.Edge v.handle k := by
      rw [Relation.reflTransGen_iff_eq_or_transGen,
        hm.transGen_iff (hm.getElem?_handle (mem_of_version hv)), ← ihbelow, List.map_cons,
        List.mem_cons]
    rw [List.map_append, List.mem_append, hhere, ihrest, List.exists_mem_cons_iff]
    refine or_congr_left ⟨fun hk => ⟨v, hv, hk⟩, ?_⟩
    rintro ⟨w, hw, hk⟩
    rwa [Except.ok.inj (hv.symm.trans hw)]

/-- **In a forest** no version comes twice in the preorder of what is placed in one version. -/
theorem nodup_handles (hm : m.ValidHandles) (hforest : m.IsForest)
    (h : InPreorder m numbers versions) (hnodup : numbers.Nodup) {parent : Nat}
    (hedges : ∀ number ∈ numbers, (parent, number) ∈ m.edges) :
    (versions.map (·.handle)).Nodup := by
  induction h generalizing parent with
  | nil => exact List.nodup_nil
  | @cons number more v below rest hv hbelow hrest ihbelow ihrest =>
    obtain ⟨hnew, hnodup⟩ := List.nodup_cons.mp hnodup
    obtain ⟨hedge, hmore⟩ := List.forall_mem_cons.mp hedges
    have hat := hm.getElem?_handle (mem_of_version hv)
    -- `v` is above all of `below`, so that nothing there stands behind it once more
    have habove : ∀ k ∈ below.map (·.handle), Relation.TransGen m.Edge v.handle k := fun k hk =>
      (hm.transGen_iff hat).mpr ((hbelow.mem_handles_iff hm).mp hk)
    have hhere : ∀ k ∈ (v :: below).map (·.handle), Relation.ReflTransGen m.Edge v.handle k := by
      intro k hk
      rcases List.mem_cons.mp hk with rfl | hk
      · exact .refl
      · exact (habove k hk).to_reflTransGen
    have hinlines : ∀ number ∈ v.inlines, (v.handle, number) ∈ m.edges := fun number hnumber =>
      mem_edges_iff.mpr ⟨v, mem_of_version hv, rfl, hnumber⟩
    rw [List.map_append, List.nodup_append]
    refine ⟨List.nodup_cons.mpr ⟨fun hself => hforest.acyclic _ (habove _ hself), ?_⟩,
      ihrest hnodup hmore, ?_⟩
    · exact ihbelow (hforest.nodup_inlines (mem_of_version hv)) hinlines
    · rintro k hk _ hk' rfl
      obtain ⟨number', hmem, w, hw, hwk⟩ := (hrest.mem_handles_iff hm).mp hk'
      obtain rfl := hm.eq_handle hedge hv
      obtain rfl := hm.eq_handle (hmore _ hmem) hw
      rw [hforest.eq_of_siblings hedge (hmore _ hmem) (hhere k hk) hwk] at hnew
      exact hnew hmem

end InPreorder

end Model

end InlineReport
