import InlineReport.Proofs.Model.Below
import InlineReport.Proofs.View.Code
import InlineReport.Proofs.View.Listing

/-!
# Copies below a version, counted and shown

What is placed below a version is met in three ways: a walk with a stack counts it, the summary
shows it as trees, and the page as marked code inside marked code. If nothing is wrong with the
placements, **all three come to an end**, and they agree: the walk meets what can be reached by
edges, each version once, and the entries of the trees in their order (`View.descends`). So the
count that stands beside the trees is the number of their entries.

Trees and code are nested, and how deeply is limited from outside. Here the limit is as good as
none: with as many levels as there are versions, more levels change nothing.
-/

namespace InlineReport

/-! ### Entries of trees -/

mutual

/-- The entries of a tree, each before the ones below it. -/
def CopyEntry.nodes : CopyEntry → List CopyEntry
  | .mk name secondId offset calls inlines =>
    .mk name secondId offset calls inlines :: CopyEntry.nodesOf inlines

/-- The entries of some trees, one tree after the other. -/
def CopyEntry.nodesOf : List CopyEntry → List CopyEntry
  | [] => []
  | entry :: entries => entry.nodes ++ CopyEntry.nodesOf entries

end

namespace Summary

variable {lim : Limits} {m : Model} {h depth depth' : Nat} {v : Version} {numbers : List Int}
  {trees : List CopyEntry} {entry : CopyEntry}

/-- **The tree of a version**: its entry, over the trees of what is placed in it. -/
def HasTree (m : Model) (depth : Nat) (v : Version) (entry : CopyEntry) : Prop :=
  ∃ inlines, treesWithin m depth v.inlines = .ok inlines ∧
    entry = .mk v.name v.secondId v.offset (calls v) inlines

/-- The tree of what a number refers to. -/
def treeWithin (m : Model) (depth : Nat) (number : Int) : Except Failure CopyEntry := do
  let v ← m.version number
  return .mk v.name v.secondId v.offset (calls v) (← treesWithin m depth v.inlines)

/-- **One level of trees**: one tree for each number. -/
theorem treesWithin_succ (m : Model) (depth : Nat) (numbers : List Int) :
    treesWithin m (depth + 1) numbers = numbers.mapM (treeWithin m depth) := by
  cases numbers <;> rfl

theorem treeWithin_eq_ok_iff {number : Int} : treeWithin m depth number = .ok entry ↔
    ∃ v, m.version number = .ok v ∧ HasTree m depth v entry := by
  simp only [treeWithin, bind_eq_ok_iff, HasTree, pure, Except.pure, Except.ok.injEq,
    @eq_comm _ entry]

theorem forall₂_of_treesWithin (htrees : treesWithin m (depth + 1) numbers = .ok trees) :
    List.Forall₂ (fun number entry => treeWithin m depth number = .ok entry) numbers trees :=
  mapM_eq_ok_iff.mp (treesWithin_succ m depth numbers ▸ htrees)

/-- **Trees that are not nested too deeply** are the same when they might be nested more deeply. -/
theorem treesWithin_mono (htrees : treesWithin m depth numbers = .ok trees)
    (hle : depth ≤ depth') : treesWithin m depth' numbers = .ok trees := by
  induction depth generalizing numbers trees depth' with
  | zero =>
    cases numbers with
    | nil => cases depth' <;> exact htrees
    | cons number more => exact absurd htrees (by simp [treesWithin])
  | succ depth ih =>
    obtain ⟨depth', rfl⟩ : ∃ d, depth' = d + 1 := ⟨depth' - 1, by omega⟩
    rw [treesWithin_succ]
    refine mapM_eq_ok_iff.mpr ((forall₂_of_treesWithin htrees).imp fun number entry hentry => ?_)
    obtain ⟨v, hv, inlines, hinlines, rfl⟩ := treeWithin_eq_ok_iff.mp hentry
    exact treeWithin_eq_ok_iff.mpr ⟨v, hv, inlines, ih hinlines (by omega), rfl⟩

theorem HasTree.mono (h : HasTree m depth v entry) (hle : depth ≤ depth') :
    HasTree m depth' v entry :=
  h.imp fun _ htree => ⟨treesWithin_mono htree.1 hle, htree.2⟩

/-- **The preorder is that of the trees**: it has the versions of their entries. -/
theorem forall₂_nodesOf {versions : List Version} (hpreorder : m.InPreorder numbers versions)
    (htrees : treesWithin m depth numbers = .ok trees) :
    List.Forall₂ (HasTree m depth) versions (CopyEntry.nodesOf trees) := by
  induction hpreorder generalizing depth trees with
  | nil =>
    cases depth <;>
    · obtain rfl := Except.ok.inj htrees
      exact .nil
  | cons hv _ _ ihbelow ihrest =>
    cases depth with
    | zero => exact absurd htrees (by simp [treesWithin])
    | succ depth =>
      obtain ⟨entry, rest, hentry, hrest, rfl⟩ :=
        List.forall₂_cons_left_iff.mp (forall₂_of_treesWithin htrees)
      obtain ⟨w, hw, htree⟩ := treeWithin_eq_ok_iff.mp hentry
      obtain rfl := Except.ok.inj (hv.symm.trans hw)
      have hhere := htree.mono (Nat.le_succ depth)
      obtain ⟨inlines, hinlines, rfl⟩ := htree
      refine List.rel_append (.cons hhere ?_)
        (ihrest ((treesWithin_succ m depth _).trans (mapM_eq_ok_iff.mpr hrest)))
      exact (ihbelow hinlines).imp fun _ _ hnode => hnode.mono (Nat.le_succ depth)

/-! ### Trees come to an end -/

/-- Trees that are refused below a version are refused below something placed in it. -/
theorem exists_child_of_treesWithin_eq_error (hm : m.ValidHandles)
    (hv : m.versions[h]? = some v) {e : Failure}
    (herror : treesWithin m (depth + 1) v.inlines = .error e) :
    ∃ c w, m.Edge h c ∧ m.versions[c]? = some w ∧ treesWithin m depth w.inlines = .error e := by
  rw [treesWithin_succ] at herror
  obtain ⟨number, hnumber, herror⟩ := exists_mem_of_mapM_eq_error herror
  obtain ⟨c, w, rfl, hedge, hw⟩ := hm.exists_child hv hnumber
  have hversion := Model.version_eq_ok_iff.mpr hw
  rcases bind_eq_error_iff.mp herror with herror | ⟨_, hw', herror⟩
  · exact absurd (hversion.symm.trans herror) (by simp)
  obtain rfl := Except.ok.inj (hversion.symm.trans hw')
  rcases bind_eq_error_iff.mp herror with herror | ⟨_, -, herror⟩
  · exact ⟨c, w, hedge, hw, herror⟩
  · exact absurd herror (by simp [pure, Except.pure])

/-- **In a forest** the trees below a version are there, and more depth does not change them. -/
theorem exists_trees (hm : m.ValidHandles) (hforest : m.IsForest)
    (hv : m.versions[h]? = some v) :
    ∃ trees, ∀ depth, m.depthBound ≤ depth → treesWithin m depth v.inlines = .ok trees := by
  have hnever : ∀ e, treesWithin m m.depthBound v.inlines ≠ .error e := by
    refine hforest.depth_induction hm (motive := fun depth h => ∀ v, m.versions[h]? = some v →
      ∀ e, treesWithin m depth v.inlines ≠ .error e) ?_ (Model.lt_nextHandle hv)
      (Nat.le_refl _) v hv
    intro depth h _ _ ih v hv e herror
    obtain ⟨c, w, hedge, hw, herror⟩ := exists_child_of_treesWithin_eq_error hm hv herror
    exact ih c hedge w hw e herror
  cases htrees : treesWithin m m.depthBound v.inlines with
  | error e => exact absurd htrees (hnever e)
  | ok trees => exact ⟨trees, fun depth hdepth => treesWithin_mono htrees hdepth⟩

/-- Trees are refused for their depth only. -/
theorem eq_of_treesWithin_eq_error (hm : m.ValidHandles) (hv : m.versions[h]? = some v)
    {e : Failure} (herror : treesWithin m depth v.inlines = .error e) : e = Overrun.nesting := by
  induction depth generalizing h v with
  | zero =>
    cases hinlines : v.inlines with
    | nil =>
      rw [hinlines] at herror
      exact absurd herror (by simp [treesWithin])
    | cons number more =>
      rw [hinlines] at herror
      exact (Except.error.inj herror).symm
  | succ depth ih =>
    obtain ⟨c, w, -, hw, herror⟩ := exists_child_of_treesWithin_eq_error hm hv herror
    exact ih hw herror

/-! ### Entries of versions -/

/-- **The trees that are shown** are all of them, unless they are deeper than what is shown. -/
theorem treesWithin_min (hm : m.ValidHandles) (hv : m.versions[h]? = some v) (depth : Nat) :
    treesWithin m (min m.depthBound depth) v.inlines = treesWithin m m.depthBound v.inlines ∨
      treesWithin m (min m.depthBound depth) v.inlines = .error Overrun.nesting ∧
        treesWithin m depth v.inlines = .error Overrun.nesting := by
  rcases Nat.le_total m.depthBound depth with hle | hle
  · exact .inl (by rw [Nat.min_eq_left hle])
  · rw [Nat.min_eq_right hle]
    cases htrees : treesWithin m depth v.inlines with
    | ok trees => exact .inl (treesWithin_mono htrees hle).symm
    | error e => exact .inr (by rw [eq_of_treesWithin_eq_error hm hv htrees, and_self])

/-- **The entry of a version** stands or falls with its trees. -/
theorem versionEntry_eq {below : List Version} (hv : m.versions[h]? = some v)
    (hbelow : m.descendants h = .ok below) :
    versionEntry lim m h =
      (treesWithin m (min m.depthBound lim.treeDepth) v.inlines).map fun inlines => {
        compileId := v.compileId, deopts := v.deopts, calls := calls v
        inlineCount := below.length, inlines } := by
  rw [versionEntry, Model.version_eq_ok_iff.mpr hv, hbelow]
  change (treesWithin m (min m.depthBound lim.treeDepth) v.inlines).bind _ = _
  cases treesWithin m (min m.depthBound lim.treeDepth) v.inlines <;> rfl

/-- **The count that stands beside the trees** is the number of their entries. -/
theorem inlineCount_eq (hm : m.ValidHandles) (hforest : m.IsForest)
    {entry : VersionEntry} (hentry : versionEntry lim m h = .ok entry) :
    entry.inlineCount = (CopyEntry.nodesOf entry.inlines).length := by
  obtain ⟨v, hv, -⟩ := bind_eq_ok_iff.mp hentry
  have hat := Model.version_eq_ok_iff.mp hv
  obtain ⟨below, hbelow, hlt⟩ := hforest.exists_inPreorder hm hat
  rw [versionEntry_eq hat (hbelow.descendants_eq hat hlt)] at hentry
  cases htrees : treesWithin m (min m.depthBound lim.treeDepth) v.inlines with
  | error e =>
    rw [htrees] at hentry
    exact absurd hentry (by simp [Except.map])
  | ok trees =>
    rw [htrees] at hentry
    obtain rfl := Except.ok.inj hentry
    exact (forall₂_nodesOf hbelow htrees).length_eq

end Summary

namespace View

variable {lim : Limits} {m : Model} {h depth : Nat} {v : Version}
  {mark mark' : Int → Except Failure Text} {e : Failure}

/-! ### Marked code comes to an end -/

theorem replacementsWith_congr (hmark : ∀ child ∈ v.inlines, mark child = mark' child) :
    replacementsWith lim m mark v = replacementsWith lim m mark' v := by
  have hinlined : (v.inlines.mapM fun child => do
        let copy ← m.version child
        inlineMark lim v.code copy.offset (← mark child)) =
      (v.inlines.mapM fun child => do
        let copy ← m.version child
        inlineMark lim v.code copy.offset (← mark' child)) :=
    mapM_congr fun child hchild => by rw [hmark child hchild]
  rw [replacementsWith, hinlined, replacementsWith]

/-- **An indentation that cannot be written out**: that of a copy placed in a version, or in what
is below it. -/
def IndentFails (lim : Limits) (m : Model) (h : Nat) (e : Failure) : Prop :=
  ∃ (k : Nat) (parent copy : Version) (number : Int), Relation.ReflTransGen m.Edge h k ∧
    m.versions[k]? = some parent ∧ number ∈ parent.inlines ∧ m.version number = .ok copy ∧
    indent lim parent.code (findEnd parent.code copy.offset) = .error e

/-- Code that is refused has such an indentation, or something in it is refused. -/
theorem indentFails_or_of_codeWithin_eq_error (hm : m.ValidHandles)
    (hv : m.versions[h]? = some v) (herror : codeWithin lim m (depth + 1) h = .error e) :
    IndentFails lim m h e ∨ ∃ c, m.Edge h c ∧ codeWithin lim m depth c = .error e := by
  have hversion := Model.version_eq_ok_iff.mpr hv
  rcases bind_eq_error_iff.mp herror with herror | ⟨_, hv', herror⟩
  · exact absurd (hversion.symm.trans herror) (by simp)
  obtain rfl := Except.ok.inj (hversion.symm.trans hv')
  rcases bind_eq_error_iff.mp herror with herror | ⟨_, -, herror⟩
  swap
  · exact absurd herror (by simp [pure, Except.pure])
  rcases bind_eq_error_iff.mp herror with herror | ⟨_, -, herror⟩
  swap
  · exact absurd herror (by simp [pure, Except.pure])
  -- it is a copy whose marked code, or whose indentation, is refused
  obtain ⟨number, hnumber, herror⟩ := exists_mem_of_mapM_eq_error herror
  obtain ⟨c, w, rfl, hedge, hw⟩ := hm.exists_child hv hnumber
  have hchild := Model.version_eq_ok_iff.mpr hw
  rcases bind_eq_error_iff.mp herror with herror | ⟨_, hw', herror⟩
  · exact absurd (hchild.symm.trans herror) (by simp)
  obtain rfl := Except.ok.inj (hchild.symm.trans hw')
  rcases bind_eq_error_iff.mp herror with herror | ⟨_, -, herror⟩
  · exact .inr ⟨c, hedge, herror⟩
  rcases bind_eq_error_iff.mp herror with herror | ⟨_, -, herror⟩
  · exact .inl ⟨h, v, w, c, .refl, hv, hnumber, hchild, herror⟩
  · exact absurd herror (by simp [pure, Except.pure])

/-- **In a forest** more depth does not change marked code, and it is refused only for an
indentation. -/
theorem codeWithin_eq_and_indentFails (hm : m.ValidHandles) (hforest : m.IsForest)
    (hv : m.versions[h]? = some v) :
    (∀ depth, m.depthBound ≤ depth → codeWithin lim m depth h = codeWithin lim m m.depthBound h) ∧
      ∀ e, codeWithin lim m m.depthBound h = .error e → IndentFails lim m h e := by
  refine hforest.depth_induction hm (motive := fun depth h =>
    (∀ depth', depth ≤ depth' → codeWithin lim m depth' h = codeWithin lim m depth h) ∧
      ∀ e, codeWithin lim m depth h = .error e → IndentFails lim m h e) ?_ (Model.lt_nextHandle hv)
    (Nat.le_refl _)
  intro depth h v hv ih
  constructor
  · intro depth' hdepth
    obtain ⟨depth', rfl⟩ : ∃ d, depth' = d + 1 := ⟨depth' - 1, by omega⟩
    have hmark : ∀ child ∈ v.inlines,
        codeWithin lim m depth' child = codeWithin lim m depth child := by
      intro child hchild
      obtain ⟨c, -, rfl, hedge, -⟩ := hm.exists_child hv hchild
      exact (ih c hedge).1 depth' (by omega)
    rw [codeWithin, codeWithin, Model.version_eq_ok_iff.mpr hv]
    exact congrArg (· >>= fun rs => .ok (codeBox (splice v.code rs))) (replacementsWith_congr hmark)
  · intro e herror
    rcases indentFails_or_of_codeWithin_eq_error hm hv herror with hfails | ⟨c, hedge, herror⟩
    · exact hfails
    · obtain ⟨k, parent, copy, number, hk, hrest⟩ := (ih c hedge).2 e herror
      exact ⟨k, parent, copy, number, .head hedge hk, hrest⟩

/-! ### All ways down -/

/-- **The ways down from a version** come to an end and meet the same versions. -/
structure Descends (lim : Limits) (m : Model) (h : Nat) (v : Version) (below : List Version)
    (trees : List CopyEntry) : Prop where
  /-- The walk with a stack ends, in as many steps as there are versions below. -/
  walkDown_eq : ∀ steps, below.length ≤ steps → m.walkDown steps [] v.inlines = .ok below
  descendants_eq : m.descendants h = .ok below
  getElem?_handle : ∀ w ∈ below, m.versions[w.handle]? = some w
  nodup : (below.map (·.handle)).Nodup
  /-- What is below is reached by one edge or more. -/
  mem_iff : ∀ k, k ∈ below.map (·.handle) ↔ Relation.TransGen m.Edge h k
  /-- The trees are there, however much deeper they might be. -/
  trees_eq : ∀ depth, m.depthBound ≤ depth → Summary.treesWithin m depth v.inlines = .ok trees
  /-- The walk meets the versions in the order in which their entries stand in the trees. -/
  nodes : List.Forall₂ (Summary.HasTree m m.depthBound) below (CopyEntry.nodesOf trees)
  /-- The entry has the trees and their number, unless they are deeper than what is shown. -/
  entry : (∃ entry, Summary.versionEntry lim m h = .ok entry ∧ entry.inlines = trees ∧
      entry.inlineCount = below.length) ∨
    Summary.versionEntry lim m h = .error Overrun.nesting ∧
      Summary.treesWithin m lim.treeDepth v.inlines = .error Overrun.nesting
  /-- The marked code is the same, however much deeper it might be. -/
  code_eq : ∀ depth, m.depthBound ≤ depth →
    codeWithin lim m depth h = codeWithin lim m m.depthBound h
  /-- It is there, unless an indentation in it cannot be written out. -/
  code : (∃ text, codeWithin lim m m.depthBound h = .ok text) ∨
    ∃ e, codeWithin lim m m.depthBound h = .error e ∧ IndentFails lim m h e

/-- **In a forest** all ways down from a version come to an end. -/
theorem exists_descends (hm : m.ValidHandles) (hforest : m.IsForest)
    (hv : m.versions[h]? = some v) : ∃ below trees, Descends lim m h v below trees := by
  obtain ⟨below, hbelow, hlt⟩ := hforest.exists_inPreorder hm hv
  obtain ⟨trees, htrees⟩ := Summary.exists_trees hm hforest hv
  obtain ⟨hcode, hfails⟩ := codeWithin_eq_and_indentFails hm hforest hv
  have hdescendants := hbelow.descendants_eq hv hlt
  have hmem := Model.mem_versions_iff.mpr ⟨h, hv⟩
  refine ⟨below, trees,
    { walkDown_eq := fun _ hsteps => hbelow.walkDown_eq hsteps
      descendants_eq := hdescendants
      getElem?_handle := fun w hw => hm.getElem?_handle (hbelow.mem_versions hw)
      nodup := hbelow.nodup_handles hm hforest (hforest.nodup_inlines hmem) fun number hnumber =>
        Model.mem_edges_iff.mpr ⟨v, hmem, hm.handle_eq hv, hnumber⟩
      mem_iff := fun k => (hbelow.mem_handles_iff hm).trans (hm.transGen_iff hv).symm
      trees_eq := htrees
      nodes := Summary.forall₂_nodesOf hbelow (htrees _ (Nat.le_refl _))
      entry := ?_
      code_eq := hcode
      code := ?_ }⟩
  · rw [Summary.versionEntry_eq hv hdescendants]
    rcases Summary.treesWithin_min hm hv lim.treeDepth with hshown | ⟨hshown, hdeep⟩
    · rw [hshown, htrees _ (Nat.le_refl _)]
      exact .inl ⟨_, rfl, rfl, rfl⟩
    · rw [hshown]
      exact .inr ⟨rfl, hdeep⟩
  · cases htext : codeWithin lim m m.depthBound h with
    | ok text => exact .inl ⟨text, rfl⟩
    | error e => exact .inr ⟨e, rfl, hfails e htext⟩

/-- **Where the check finds nothing wrong**, all ways down from every version come to an end and
meet the same versions in the same order, and in a summary the count that stands beside the trees
of a version is the number of their entries. -/
theorem descends (hm : m.ValidHandles) (hfaults : m.forestFaults = .ok []) :
    (∀ h v, m.versions[h]? = some v → ∃ below trees, Descends lim m h v below trees) ∧
    ∀ s, summary lim m = .ok s → ∀ entry ∈ s.versionEntries,
      entry.inlineCount = (CopyEntry.nodesOf entry.inlines).length := by
  have hforest := Model.isForest_of_forestFaults_eq
    (fun edge hedge => Model.exists_version_of_lt (hm.child_lt edge hedge)) hfaults
  refine ⟨fun h v hv => exists_descends hm hforest hv, fun s hs entry hentry => ?_⟩
  obtain ⟨handle, -, hentry⟩ := exists_mem_of_forall₂ (Summary.forall₂_versionEntries hs) hentry
  exact Summary.inlineCount_eq hm hforest hentry

/-- A version of `f` with two copies in its code, and a third one in the first of them. -/
def branching : Model where
  files := Registry.empty.insert "a.js"
    { path := "a.js"
      functions := Registry.empty.insert "f" { name := "f", file := "a.js", versions := [0] } }
  versions := #[
    { handle := 0, file := "a.js", name := "f", code := "g(1) + h(2)".toList, compileId := some 0
      inlines := [3, 1] },
    { handle := 1, file := "a.js", name := "h", code := "k(x)".toList, secondId := 1
      owner := some 0, offset := 7 },
    { handle := 2, file := "a.js", name := "k", code := "y".toList, secondId := 2
      owner := some 0 },
    { handle := 3, file := "a.js", name := "g", code := "k(z)".toList, secondId := 3
      owner := some 0, inlines := [2] }]

theorem descends_branching :
    branching.ValidHandles ∧ branching.forestFaults = .ok [] ∧
      (∀ h v, branching.versions[h]? = some v →
        ∃ below trees, Descends .usual branching h v below trees) ∧
      ∀ s, summary .usual branching = .ok s → ∀ entry ∈ s.versionEntries,
        entry.inlineCount = (CopyEntry.nodesOf entry.inlines).length := by
  have hm : branching.ValidHandles := by decide
  have hfaults : branching.forestFaults = .ok [] := by rfl
  exact ⟨hm, hfaults, descends hm hfaults⟩

end View

end InlineReport
