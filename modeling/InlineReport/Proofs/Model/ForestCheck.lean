import Mathlib.Data.List.Perm.Subperm
import Mathlib.Logic.Relation
import InlineReport.Proofs.Model.Arena
import InlineReport.Model.Forest

/-!
# Checking that placements are a forest

The check of the placements keeps the first parent of each child only, and looks for cycles on
the way up by first parents. That is enough: where a child has two parents, or is a compiled
version, the walk over the edges has found it already, and otherwise the first parents are all
parents. So **nothing is found wrong exactly in a forest** (`Model.forestFaults_eq_nil_iff`),
whatever the edges are.

**The way up** is counted here, and a way with more steps than there are children is known to go
round. Going up with the set of what has been met (`Model.Ascent`) ends as well, and says the same
(`Model.ascent_climbs`).
-/

namespace InlineReport

namespace Model

variable {m : Model} {parents : Registry Int Nat} {edges : List (Nat × Int)}

/-! ### The graph of placements -/

/-- **Valid handles**: each version is at its handle, and what is placed in a version is the
handle of a version. -/
structure ValidHandles (m : Model) : Prop where
  handle_eq : ∀ {h : Nat} {v}, m.versions[h]? = some v → v.handle = h
  child_lt : ∀ edge ∈ m.edges, ∃ child : Nat, edge.2 = child ∧ child < m.nextHandle

theorem validHandles_iff : m.ValidHandles ↔
    (∀ h : Fin m.versions.size, m.versions[h].handle = h) ∧
      ∀ edge ∈ m.edges, 0 ≤ edge.2 ∧ edge.2 < m.nextHandle := by
  constructor
  · intro hm
    refine ⟨fun h => hm.handle_eq (Array.getElem?_eq_getElem h.isLt), fun edge hedge => ?_⟩
    obtain ⟨child, hchild, hlt⟩ := hm.child_lt edge hedge
    omega
  · rintro ⟨hhandle, hchild⟩
    refine ⟨fun {h v} hv => ?_, fun edge hedge => ?_⟩
    · obtain ⟨hlt, rfl⟩ := Array.getElem?_eq_some_iff.mp hv
      exact hhandle ⟨h, hlt⟩
    · obtain ⟨hle, hlt⟩ := hchild edge hedge
      exact ⟨edge.2.toNat, by omega, by omega⟩

instance (m : Model) : Decidable m.ValidHandles := decidable_of_iff _ validHandles_iff.symm

/-- **An edge**: a copy is placed in a version. -/
def Edge (m : Model) (parent child : Nat) : Prop := (parent, (child : Int)) ∈ m.edges

/-- A number that stands for a copy. -/
def RefersToCopy (m : Model) (number : Int) : Prop :=
  ∀ v, m.version number = .ok v → v.isInline = true

/-- **A forest**: every version is placed once at most, compiled versions are not placed at all,
and no version is placed below itself. -/
structure IsForest (m : Model) : Prop where
  nodup : (m.edges.map (·.2)).Nodup
  refersToCopy : ∀ edge ∈ m.edges, m.RefersToCopy edge.2
  acyclic : ∀ h, ¬ Relation.TransGen m.Edge h h

theorem exists_version_of_lt {number : Int}
    (h : ∃ handle : Nat, number = handle ∧ handle < m.nextHandle) :
    ∃ v, m.version number = .ok v := by
  obtain ⟨handle, rfl, hlt⟩ := h
  exact ⟨m.versions[handle], version_eq_ok_iff.mpr (Array.getElem?_eq_getElem hlt)⟩

/-! ### First parents -/

/-- The first parents that are known after a walk over edges. -/
def firstParents (parents : Registry Int Nat) (edges : List (Nat × Int)) : Registry Int Nat :=
  edges.foldl (fun parents edge => parents.insertNew edge.2 edge.1) parents

/-- Where no child comes twice, the first parents are all parents. -/
theorem get?_firstParents_iff (hnodup : (edges.map (·.2)).Nodup)
    (hfresh : ∀ edge ∈ edges, parents.get? edge.2 = none) {parent : Nat} {child : Int} :
    (firstParents parents edges).get? child = some parent ↔
      parents.get? child = some parent ∨ (parent, child) ∈ edges := by
  induction edges generalizing parents with
  | nil => simp [firstParents]
  | cons edge edges ih =>
    rw [List.map_cons, List.nodup_cons] at hnodup
    obtain ⟨hnew, hnodup⟩ := hnodup
    have hinsert : parents.insertNew edge.2 edge.1 = parents.insert edge.2 edge.1 := by
      rw [Registry.insertNew, Registry.contains, hfresh edge List.mem_cons_self]
      rfl
    have hstill : ∀ later ∈ edges, (parents.insertNew edge.2 edge.1).get? later.2 = none := by
      intro later hlater
      have hne : edge.2 ≠ later.2 := fun heq => hnew (List.mem_map.mpr ⟨later, hlater, heq.symm⟩)
      rw [hinsert, Registry.get?_insert, if_neg hne]
      exact hfresh later (List.mem_cons_of_mem _ hlater)
    rw [firstParents, List.foldl_cons, ← firstParents, ih hnodup hstill, hinsert,
      Registry.get?_insert, List.mem_cons]
    by_cases heq : edge.2 = child
    · simp [← heq, Prod.ext_iff, hfresh edge List.mem_cons_self, eq_comm]
    · have hne : (parent, child) ≠ edge := fun h => heq (congrArg Prod.snd h).symm
      simp [heq, hne]

/-- **The walk over the edges** finds nothing wrong if each edge leads to a copy that no other
edge leads to. -/
theorem foldlM_meetEdge (hvalid : ∀ edge ∈ edges, ∃ v, m.version edge.2 = .ok v)
    (walk : ForestWalk) : ∃ found,
      edges.foldlM m.meetEdge walk =
        .ok { parents := firstParents walk.parents edges, faults := walk.faults ++ found } ∧
      (found = [] ↔ (edges.map (·.2)).Nodup ∧ (∀ edge ∈ edges, m.RefersToCopy edge.2) ∧
        ∀ edge ∈ edges, walk.parents.get? edge.2 = none) := by
  induction edges generalizing walk with
  | nil => exact ⟨[], by simp [firstParents, pure, Except.pure], by simp⟩
  | cons edge edges ih =>
    obtain ⟨parent, child⟩ := edge
    obtain ⟨hv, hvalid⟩ := List.forall_mem_cons.mp hvalid
    obtain ⟨v, hv⟩ := hv
    cases hknown : walk.parents.get? child with
    | some first =>
      -- a second edge to the child is a fault, and the child keeps its first parent
      have hmeet : m.meetEdge walk (parent, child) =
          .ok { walk with faults := walk.faults ++ [.shared child first parent] } := by
        simp only [meetEdge, hknown]
      obtain ⟨found, hrun, -⟩ := ih hvalid { walk with
        faults := walk.faults ++ [.shared child first parent] }
      have hsame : walk.parents.insertNew child parent = walk.parents := by
        rw [Registry.insertNew, Registry.contains, hknown]
        rfl
      refine ⟨.shared child first parent :: found, ?_, ?_⟩
      · rw [List.foldlM_cons, hmeet, firstParents, List.foldl_cons, hsame]
        simpa [bind, Except.bind, firstParents] using hrun
      · refine iff_of_false (List.cons_ne_nil _ _) fun h => ?_
        exact absurd (hknown.symm.trans (h.2.2 _ List.mem_cons_self)) (by simp)
    | none =>
      have hinsert : walk.parents.insertNew child parent = walk.parents.insert child parent := by
        rw [Registry.insertNew, Registry.contains, hknown]
        rfl
      obtain ⟨found, hrun, hfound⟩ := ih hvalid {
        parents := walk.parents.insert child parent
        faults := walk.faults ++ if v.isInline then [] else [.compiled child parent] }
      refine ⟨(if v.isInline then [] else [.compiled child parent]) ++ found, ?_, ?_⟩
      · rw [List.foldlM_cons, firstParents, List.foldl_cons, hinsert, ← List.append_assoc]
        simp only [meetEdge, hknown, hv, bind, Except.bind]
        exact hrun
      · have hcopy : m.RefersToCopy child ↔ v.isInline = true := by
          simp [RefersToCopy, hv]
        have hfresh : (∀ edge ∈ edges, (walk.parents.insert child parent).get? edge.2 = none) ↔
            child ∉ edges.map (·.2) ∧ ∀ edge ∈ edges, walk.parents.get? edge.2 = none := by
          simp only [Registry.get?_insert, List.mem_map, not_exists, not_and, ← forall₂_and]
          refine forall₂_congr fun edge _ => ?_
          by_cases heq : child = edge.2
          · simp [heq]
          · simp [heq, Ne.symm heq]
        rw [List.append_eq_nil_iff, hfound, hfresh, List.map_cons, List.nodup_cons,
          List.forall_mem_cons, List.forall_mem_cons, hcopy]
        by_cases hinline : v.isInline = true
        · simp [hinline, hknown]
          tauto
        · simp [hinline]

/-! ### The way up -/

/-- The version that is the parent of another one in a table of parents. -/
def IsParent (parents : Registry Int Nat) (parent child : Nat) : Prop :=
  parents.get? child = some parent

/-- The way up meets versions that have a parent, each above those that it met before. -/
theorem exists_of_climbs {steps v : Nat} (hclimbs : climbs parents steps v = true) :
    ∃ met : List Nat, met.length = steps ∧
      met.Pairwise (fun below above => Relation.TransGen (IsParent parents) above below) ∧
      (∀ w ∈ met, (w : Int) ∈ parents.keys) ∧
      ∀ w ∈ met, Relation.ReflTransGen (IsParent parents) w v := by
  induction steps generalizing v with
  | zero => exact ⟨[], rfl, .nil, by simp, by simp⟩
  | succ steps ih =>
    rw [climbs] at hclimbs
    split at hclimbs
    · next parent hparent =>
      obtain ⟨met, hlength, hmet, hkeys, habove⟩ := ih hclimbs
      have hkey : (v : Int) ∈ parents.keys :=
        Registry.get?_isSome_iff.mp (by rw [hparent, Option.isSome_some])
      have hv : ∀ w ∈ met, Relation.TransGen (IsParent parents) w v :=
        fun w hw => .tail' (habove w hw) hparent
      refine ⟨v :: met, by rw [List.length_cons, hlength], List.pairwise_cons.mpr ⟨hv, hmet⟩,
        List.forall_mem_cons.mpr ⟨hkey, hkeys⟩, List.forall_mem_cons.mpr ⟨.refl, ?_⟩⟩
      exact fun w hw => (hv w hw).to_reflTransGen
    · exact absurd hclimbs Bool.false_ne_true

/-- **Without a cycle the way up is short**: it cannot have more steps than there are versions
with a parent. -/
theorem not_climbs (hacyclic : ∀ h, ¬ Relation.TransGen (IsParent parents) h h) (v : Nat) :
    climbs parents (parents.size + 1) v = false := by
  refine Bool.eq_false_iff.mpr fun hclimbs => ?_
  obtain ⟨met, hlength, hmet, hkeys, -⟩ := exists_of_climbs hclimbs
  have hnodup : (met.map (Nat.cast : Nat → Int)).Nodup := by
    rw [List.Nodup, List.pairwise_map]
    refine hmet.imp fun {below above} habove heq => ?_
    exact hacyclic above (Int.ofNat_inj.mp heq ▸ habove)
  have hsubset : met.map (Nat.cast : Nat → Int) ⊆ parents.keys := fun key hkey => by
    obtain ⟨w, hw, rfl⟩ := List.mem_map.mp hkey
    exact hkeys w hw
  have hle := (List.subperm_of_subset hnodup hsubset).length_le
  have hsize : parents.keys.length = parents.size := List.length_map _
  rw [List.length_map] at hle
  omega

/-- **The way up never ends** among versions whose parents are among them. -/
theorem climbs_of_closed (among : Int → Prop)
    (hclosed : ∀ w, among w → ∃ parent : Nat, parents.get? w = some parent ∧ among parent)
    (steps : Nat) {v : Int} (hv : among v) : climbs parents steps v = true := by
  induction steps generalizing v with
  | zero => rfl
  | succ steps ih =>
    obtain ⟨parent, hparent, hamong⟩ := hclosed v hv
    rw [climbs, hparent]
    exact ih hamong

/-- On a cycle the way up never ends. -/
theorem climbs_of_cycle {v : Nat} (hcycle : Relation.TransGen (IsParent parents) v v)
    (steps : Nat) : climbs parents steps v = true := by
  refine climbs_of_closed (fun w => ∃ k : Nat, w = k ∧
    Relation.TransGen (IsParent parents) k k) ?_ steps ⟨v, rfl, hcycle⟩
  rintro _ ⟨k, rfl, hk⟩
  obtain ⟨parent, hup, hparent⟩ := Relation.TransGen.tail'_iff.mp hk
  exact ⟨parent, hparent, parent, rfl, .head' hparent hup⟩

/-! ### Going up with what has been met -/

/-- **Going up with what has been met**: the way ends at a version without a parent, or at one
whose parent has been met already. -/
inductive Ascent (parents : Registry Int Nat) : (met : List Int) → (v : Int) → Bool → Prop
  | top {met v} (htop : parents.get? v = none) : Ascent parents met v false
  | again {met v} {parent : Nat} (hparent : parents.get? v = some parent)
    (hmet : (parent : Int) ∈ met) : Ascent parents met v true
  | up {met v round} {parent : Nat} (hparent : parents.get? v = some parent)
    (hnew : (parent : Int) ∉ met) (hup : Ascent parents (parent :: met) parent round) :
    Ascent parents met v round

/-- What has been met on a way up are versions with a parent, apart from the last one, and so
they cannot be more than `parents.size + 1`. What is left of this number bounds the way still to
go. -/
theorem exists_ascent (left : Nat) {v : Int} (below : List Int) (hnodup : (v :: below).Nodup)
    (hparents : ∀ w ∈ below, ∃ parent : Nat, parents.get? w = some parent ∧
      (parent : Int) ∈ v :: below)
    (hleft : below.length + left = parents.size + 1) :
    ∃ round, Ascent parents (v :: below) v round ∧
      (round = true → ∀ steps, climbs parents steps v = true) ∧
      (round = false → climbs parents left v = false) := by
  induction left generalizing v below with
  | zero =>
    have hkeys : below ⊆ parents.keys := fun w hw => by
      obtain ⟨parent, hparent, -⟩ := hparents w hw
      exact Registry.get?_isSome_iff.mp (by rw [hparent, Option.isSome_some])
    have hle := (List.subperm_of_subset (List.nodup_cons.mp hnodup).2 hkeys).length_le
    have hsize : parents.keys.length = parents.size := List.length_map _
    omega
  | succ left ih =>
    cases hparent : parents.get? v with
    | none => exact ⟨false, .top hparent, by simp, fun _ => by rw [climbs, hparent]⟩
    | some parent =>
      by_cases hmet : (parent : Int) ∈ v :: below
      · have hclosed : ∀ w ∈ v :: below, ∃ parent : Nat, parents.get? w = some parent ∧
            (parent : Int) ∈ v :: below :=
          List.forall_mem_cons.mpr ⟨⟨parent, hparent, hmet⟩, hparents⟩
        exact ⟨true, .again hparent hmet,
          fun _ steps => climbs_of_closed (· ∈ v :: below) hclosed steps List.mem_cons_self,
          by simp⟩
      · have hup : ∀ w ∈ v :: below, ∃ parent' : Nat, parents.get? w = some parent' ∧
            (parent' : Int) ∈ (parent : Int) :: v :: below := by
          refine List.forall_mem_cons.mpr ⟨⟨parent, hparent, List.mem_cons_self⟩, fun w hw => ?_⟩
          obtain ⟨parent', hparent', hmem⟩ := hparents w hw
          exact ⟨parent', hparent', List.mem_cons_of_mem _ hmem⟩
        obtain ⟨round, hround, hagain, htop⟩ := ih (v :: below)
          (List.nodup_cons.mpr ⟨hmet, hnodup⟩) hup (by rw [List.length_cons]; omega)
        have hclimbs : ∀ steps, climbs parents (steps + 1) v = climbs parents steps parent :=
          fun steps => by rw [climbs, hparent]
        refine ⟨round, .up hparent hmet hround, fun h steps => ?_, fun h => ?_⟩
        · cases steps with
          | zero => rfl
          | succ steps => rw [hclimbs, hagain h]
        · rw [hclimbs, htop h]

/-- **Counting the steps of the way up** says whether it goes round. -/
theorem ascent_climbs (parents : Registry Int Nat) (v : Int) :
    Ascent parents [v] v (climbs parents (parents.size + 1) v) := by
  obtain ⟨round, hround, hagain, htop⟩ := exists_ascent (parents.size + 1) []
    (List.nodup_cons.mpr ⟨List.not_mem_nil, List.nodup_nil⟩)
    (fun w hw => absurd hw List.not_mem_nil) (Nat.zero_add _)
  cases round with
  | false => rwa [htop rfl]
  | true => rwa [hagain rfl]

/-! ### The check -/

/-- **What the check finds**: faults of single edges, and children whose way up goes round. -/
theorem exists_forestFaults (hvalid : ∀ edge ∈ m.edges, ∃ v, m.version edge.2 = .ok v) :
    ∃ found, m.forestFaults = .ok (found ++ ((firstParents .empty m.edges).keys.filter
        (climbs (firstParents .empty m.edges) ((firstParents .empty m.edges).size + 1))).map
          .cycle) ∧
      (found = [] ↔ (m.edges.map (·.2)).Nodup ∧ ∀ edge ∈ m.edges, m.RefersToCopy edge.2) := by
  obtain ⟨found, hrun, hfound⟩ := foldlM_meetEdge hvalid {}
  refine ⟨found, ?_, hfound.trans ?_⟩
  · rw [forestFaults, hrun]
    rfl
  · simp

/-- Where no child comes twice, the parents that the check knows are those of all edges. -/
theorem isParent_firstParents (hnodup : (m.edges.map (·.2)).Nodup) :
    IsParent (firstParents .empty m.edges) = m.Edge := by
  funext parent child
  rw [IsParent, get?_firstParents_iff hnodup (by simp), Edge]
  simp

/-- **In a forest** nothing is found wrong. -/
theorem IsForest.forestFaults_eq (hforest : m.IsForest)
    (hchild : ∀ edge ∈ m.edges, ∃ child : Nat, edge.2 = child ∧ child < m.nextHandle) :
    m.forestFaults = .ok [] := by
  obtain ⟨found, hfaults, hfound⟩ :=
    exists_forestFaults fun edge hedge => exists_version_of_lt (hchild edge hedge)
  have hacyclic := hforest.acyclic
  rw [← isParent_firstParents hforest.nodup] at hacyclic
  have hcycles : (firstParents .empty m.edges).keys.filter (climbs (firstParents .empty m.edges)
      ((firstParents .empty m.edges).size + 1)) = [] := by
    refine List.filter_eq_nil_iff.mpr fun key hkey => Bool.eq_false_iff.mp ?_
    obtain ⟨parent, hparent⟩ := Option.isSome_iff_exists.mp (Registry.get?_isSome_iff.mpr hkey)
    have hedge :=
      ((get?_firstParents_iff hforest.nodup (by simp)).mp hparent).resolve_left (by simp)
    obtain ⟨child, hchild, -⟩ := hchild _ hedge
    dsimp only at hchild
    rw [hchild]
    exact not_climbs hacyclic child
  rw [hfaults, hcycles, hfound.mpr ⟨hforest.nodup, hforest.refersToCopy⟩]
  rfl

/-- **Where nothing is found wrong** there is a forest. -/
theorem isForest_of_forestFaults_eq (hvalid : ∀ edge ∈ m.edges, ∃ v, m.version edge.2 = .ok v)
    (h : m.forestFaults = .ok []) : m.IsForest := by
  obtain ⟨found, hfaults, hfound⟩ := exists_forestFaults hvalid
  obtain ⟨hnone, hcycles⟩ := List.append_eq_nil_iff.mp (Except.ok.inj (hfaults.symm.trans h))
  obtain ⟨hnodup, hcopies⟩ := hfound.mp hnone
  refine ⟨hnodup, hcopies, fun handle hcycle => ?_⟩
  rw [← isParent_firstParents hnodup] at hcycle
  -- a version on a cycle has a parent, so its way up has been looked at
  obtain ⟨parent, -, hparent⟩ := Relation.TransGen.tail'_iff.mp hcycle
  have hkey : (handle : Int) ∈ (firstParents .empty m.edges).keys :=
    Registry.get?_isSome_iff.mp (Option.isSome_iff_exists.mpr ⟨parent, hparent⟩)
  exact List.filter_eq_nil_iff.mp (List.map_eq_nil_iff.mp hcycles) _ hkey
    (climbs_of_cycle hcycle _)

/-- **The check of a forest**: for valid handles and whatever edges it comes to an end, each way up
as well as the whole, and finds nothing wrong exactly where the edges are a forest. -/
theorem forestFaults_eq_nil_iff (hm : m.ValidHandles) :
    (∃ walk, m.edges.foldlM m.meetEdge {} = .ok walk ∧ ∀ v,
      Ascent walk.parents [v] v (climbs walk.parents (walk.parents.size + 1) v)) ∧
    (∃ faults, m.forestFaults = .ok faults) ∧
    (m.forestFaults = .ok [] ↔ m.IsForest) := by
  have hvalid : ∀ edge ∈ m.edges, ∃ v, m.version edge.2 = .ok v :=
    fun edge hedge => exists_version_of_lt (hm.child_lt edge hedge)
  obtain ⟨found, hrun, -⟩ := foldlM_meetEdge hvalid {}
  obtain ⟨cycles, hfaults, -⟩ := exists_forestFaults hvalid
  exact ⟨⟨_, hrun, ascent_climbs _⟩, ⟨_, hfaults⟩, isForest_of_forestFaults_eq hvalid,
    fun hforest => hforest.forestFaults_eq hm.child_lt⟩

/-- A version of `f` with a copy that is placed in it twice, and two copies that are placed in each
other. -/
def tangled : Model where
  versions := #[
    { handle := 0, file := "a.js", name := "f", code := [], compileId := some 0
      inlines := [1, 1] },
    { handle := 1, file := "a.js", name := "g", code := [], secondId := 1, owner := some 0 },
    { handle := 2, file := "a.js", name := "g", code := [], secondId := 2, owner := some 0
      inlines := [3] },
    { handle := 3, file := "a.js", name := "g", code := [], secondId := 3, owner := some 0
      inlines := [2] }]

theorem forestFaults_eq_nil_iff_tangled :
    tangled.ValidHandles ∧ tangled.forestFaults = .ok [.shared 1 0 0, .cycle 3, .cycle 2] ∧
      (tangled.forestFaults = .ok [] ↔ tangled.IsForest) := by
  have hm : tangled.ValidHandles := by decide
  exact ⟨hm, by rfl, (forestFaults_eq_nil_iff hm).2.2⟩

end Model

end InlineReport
