import InlineReport.Proofs.View.Totals
import InlineReport.View.Page

/-!
# Which models are shown

A model of a trace is shown as a page and as a summary, and neither can go wrong for what the
trace says. **Two magnitudes** stand against it: how deeply copies are nested in each other, and
how far a copy would be indented. A model is `Showable` if both are within their limits for every
compiled version, and then, and only then, there is a page (`exists_page_iff`); the summary has a
wider limit of the first kind and none of the second (`Summary.exists_of_showable`).
-/

namespace InlineReport

namespace Model

variable {m : Model} {h depth depth' : Nat}

/-- Whether there is a way down from a version of so many steps. -/
def DeepFrom (m : Model) : (depth : Nat) → (handle : Nat) → Prop
  | 0, _ => True
  | depth + 1, h => ∃ c, m.Edge h c ∧ DeepFrom m depth c

theorem DeepFrom.mono (hdeep : m.DeepFrom depth h) (hle : depth' ≤ depth) :
    m.DeepFrom depth' h := by
  induction depth' generalizing depth h with
  | zero => trivial
  | succ depth' ih =>
    obtain ⟨depth, rfl⟩ : ∃ d, depth = d + 1 := ⟨depth - 1, by omega⟩
    obtain ⟨c, hedge, hdeep⟩ := hdeep
    exact ⟨c, hedge, ih hdeep (by omega)⟩

/-- In a forest no way down has as many steps as there are versions. -/
theorem IsForest.not_deepFrom (hforest : m.IsForest) (hm : m.ValidHandles)
    (hh : h < m.nextHandle) : ¬ m.DeepFrom m.depthBound h := by
  refine hforest.depth_induction hm (motive := fun depth h => ¬ m.DeepFrom depth h) ?_ hh
    (Nat.le_refl _)
  rintro depth h v hv ih ⟨c, hedge, hdeep⟩
  exact ih c hedge hdeep

end Model

namespace View

variable {lim : Limits} {m : Model} {h c depth : Nat} {v : Version} {e : Failure}

/-! ### Marked code -/

/-- Whether the indentation behind a copy can be written out. -/
def Fits (lim : Limits) (m : Model) (parent child : Nat) : Prop :=
  ∀ v copy, m.versions[parent]? = some v → m.versions[child]? = some copy →
    column v.code (findEnd v.code copy.offset) ≤ min lengthBound lim.indent

theorem exists_indent_iff {code : Text} {offset : Int} :
    (∃ blanks, indent lim code offset = .ok blanks) ↔
      column code offset ≤ min lengthBound lim.indent := by
  unfold indent
  split
  next hlength => exact iff_of_false (by simp) (by omega)
  next hlength =>
    split
    next hindent => exact iff_of_false (by simp) (by omega)
    next hindent => exact iff_of_true ⟨_, rfl⟩ (by omega)

/-- **The magnitudes that stand against a page**: copies that are nested too deeply, and
indentations that are longer than a text can be, or than fits into memory. -/
def TooGreat (e : Failure) : Prop :=
  e = Overrun.nesting ∨ e = Overrun.indent ∨ e = Overrun.memory

theorem TooGreat.ne_trace (h : TooGreat e) (fault : TraceError) : e ≠ .trace fault := by
  rintro rfl
  rcases h with h | h | h <;> cases h

theorem tooGreat_of_indent_eq_error {code : Text} {offset : Int}
    (herror : indent lim code offset = .error e) : TooGreat e := by
  unfold indent at herror
  split at herror
  · exact .inr (.inl (Except.error.inj herror).symm)
  · split at herror
    · exact .inr (.inr (Except.error.inj herror).symm)
    · cases herror

/-- **What can be shown below a version**: it is not too deep, and all indentations can be
written out. -/
structure Shown (lim : Limits) (m : Model) (depth h : Nat) : Prop where
  shallow : ¬ m.DeepFrom depth h
  fits : ∀ k c, Relation.ReflTransGen m.Edge h k → m.Edge k c → Fits lim m k c

theorem shown_succ_iff :
    Shown lim m (depth + 1) h ↔ ∀ c, m.Edge h c → Fits lim m h c ∧ Shown lim m depth c := by
  constructor
  · rintro ⟨hshallow, hfits⟩ c hedge
    exact ⟨hfits h c .refl hedge, fun hdeep => hshallow ⟨c, hedge, hdeep⟩,
      fun k d hk => hfits k d (.head hedge hk)⟩
  · intro hall
    refine ⟨fun ⟨c, hedge, hdeep⟩ => (hall c hedge).2.shallow hdeep, fun k d hk hedge => ?_⟩
    rcases hk.cases_head with rfl | ⟨c, hfirst, hk⟩
    · exact (hall d hedge).1
    · exact (hall c hfirst).2.fits k d hk hedge

/-- The marker of a copy is there if its marked code is, and its indentation. -/
theorem exists_inlineMark_iff {code : Text} {offset : Int} {body : Except Failure Text} :
    (∃ r, body >>= inlineMark lim code offset = .ok r) ↔
      (∃ text, body = .ok text) ∧
        column code (findEnd code offset) ≤ min lengthBound lim.indent := by
  rw [exists_bind_eq_ok_iff, ← exists_indent_iff, ← exists_and_right]
  refine exists_congr fun text => and_congr_right fun _ => ?_
  unfold inlineMark
  rw [exists_bind_eq_ok_iff]
  exact exists_congr fun blanks => and_iff_left ⟨_, rfl⟩

/-- **Marked code is there** if it can be shown. -/
theorem exists_codeWithin_iff (hm : m.ValidHandles) (hv : m.versions[h]? = some v) :
    (∃ text, codeWithin lim m depth h = .ok text) ↔ Shown lim m depth h := by
  induction depth generalizing h v with
  | zero => exact iff_of_false (by simp [codeWithin]) fun hshown => hshown.shallow trivial
  | succ depth ih =>
    have hitems : (∃ text, codeWithin lim m (depth + 1) h = .ok text) ↔
        ∀ number ∈ v.inlines, ∃ r, (do
          let copy ← m.version number
          codeWithin lim m depth number >>= inlineMark lim v.code copy.offset) = .ok r := by
      rw [codeWithin, Model.version_eq_ok_iff.mpr hv, ← exists_mapM_eq_ok_iff]
      change (∃ text, (replacementsWith lim m (codeWithin lim m depth) v >>= _) = .ok text) ↔ _
      simp only [replacementsWith, exists_bind_eq_ok_iff, pure, Except.pure, Except.ok.injEq,
        exists_eq', and_true]
    rw [hitems, shown_succ_iff]
    -- a number in the version is that of a child, and the other way round
    have hchild (c : Nat) (w : Version) (hw : m.versions[c]? = some w) :
        (∃ r, (do
          let copy ← m.version c
          codeWithin lim m depth c >>= inlineMark lim v.code copy.offset) = .ok r) ↔
            Fits lim m h c ∧ Shown lim m depth c := by
      rw [Model.version_eq_ok_iff.mpr hw, ← ih hw, and_comm]
      refine exists_inlineMark_iff.trans (and_congr_right fun _ => ?_)
      constructor
      · intro hle v' w' hv' hw'
        obtain rfl := Option.some.inj (hv.symm.trans hv')
        obtain rfl := Option.some.inj (hw.symm.trans hw')
        exact hle
      · exact fun hfits => hfits v w hv hw
    constructor
    · intro hall c hedge
      obtain ⟨c', w, hc, -, hw⟩ := hm.exists_child hv ((hm.edge_iff hv).mp hedge)
      obtain rfl := Int.ofNat.inj hc
      exact (hchild c w hw).mp (hall c ((hm.edge_iff hv).mp hedge))
    · intro hall number hnumber
      obtain ⟨c, w, rfl, hedge, hw⟩ := hm.exists_child hv hnumber
      exact (hchild c w hw).mpr (hall c hedge)

/-- Marked code is refused for one of its magnitudes. -/
theorem tooGreat_of_codeWithin_eq_error (hm : m.ValidHandles) (hv : m.versions[h]? = some v)
    (herror : codeWithin lim m depth h = .error e) : TooGreat e := by
  induction depth generalizing h v with
  | zero => exact .inl (Except.error.inj herror).symm
  | succ depth ih =>
    rcases indentFails_or_of_codeWithin_eq_error hm hv herror with hfails | ⟨c, hedge, herror⟩
    · obtain ⟨k, parent, copy, number, -, -, -, -, hindent⟩ := hfails
      exact tooGreat_of_indent_eq_error hindent
    · exact ih (Array.getElem?_eq_getElem (hm.lt_of_edge hedge)) herror

/-! ### The page -/

theorem exists_version_of_codeWithin {number : Int} {text : Text}
    (h : codeWithin lim m depth number = .ok text) : ∃ v, m.version number = .ok v := by
  cases depth with
  | zero => cases h
  | succ depth =>
    obtain ⟨v, hv, -⟩ := bind_eq_ok_iff.mp h
    exact ⟨v, hv⟩

theorem exists_versionsLines_iff {recompiled : Bool} {handles : List Nat} :
    (∃ lines, versionsLines lim m recompiled handles = .ok lines) ↔
      ∀ h ∈ handles, ∃ text, code lim m h = .ok text := by
  induction handles with
  | nil => simp [versionsLines]
  | cons h more ih =>
    rw [List.forall_mem_cons, ← ih, versionsLines, exists_bind_eq_ok_iff]
    constructor
    · rintro ⟨v, -, hlines⟩
      obtain ⟨text, htext, hlines⟩ := exists_bind_eq_ok_iff.mp hlines
      exact ⟨⟨text, htext⟩, exists_bind_pure_eq_ok_iff.mp hlines⟩
    · rintro ⟨⟨text, htext⟩, hmore⟩
      obtain ⟨v, hv⟩ := exists_version_of_codeWithin htext
      exact ⟨v, hv, exists_bind_eq_ok_iff.mpr
        ⟨text, htext, exists_bind_pure_eq_ok_iff.mpr hmore⟩⟩

/-- **A page is there** if the marked code of every listed version is. -/
theorem exists_page_iff_code {title : String} :
    (∃ out, page lim m title = .ok out) ↔
      ∀ h : Nat, h ∈ m.functions.flatMap (·.versions) → ∃ text, code lim m h = .ok text := by
  simp only [page, pageLines, fileLines, functionLines, exists_bind_pure_eq_ok_iff,
    exists_mapM_eq_ok_iff, exists_versionsLines_iff, Model.functions, List.forall_mem_flatMap]

theorem exists_of_versionsLines_eq_error {recompiled : Bool} {handles : List Nat}
    (herror : versionsLines lim m recompiled handles = .error e) :
    ∃ h ∈ handles, m.version h = .error e ∨ code lim m h = .error e := by
  induction handles with
  | nil => cases herror
  | cons h more ih =>
    rcases bind_eq_error_iff.mp herror with herror | ⟨v, -, herror⟩
    · exact ⟨h, List.mem_cons_self, .inl herror⟩
    rcases bind_eq_error_iff.mp herror with herror | ⟨text, -, herror⟩
    · exact ⟨h, List.mem_cons_self, .inr herror⟩
    rcases bind_eq_error_iff.mp herror with herror | ⟨lines, -, herror⟩
    · exact (ih herror).imp fun h => .imp_left (List.mem_cons_of_mem _)
    · cases herror

/-- **A page is refused** only where a version that is listed is refused. -/
theorem exists_of_page_eq_error {title : String} (herror : page lim m title = .error e) :
    ∃ h : Nat, h ∈ m.functions.flatMap (·.versions) ∧
      (m.version h = .error e ∨ code lim m h = .error e) := by
  obtain herror | ⟨_, -, ⟨⟩⟩ := bind_eq_error_iff.mp herror
  obtain herror | ⟨_, -, ⟨⟩⟩ := bind_eq_error_iff.mp herror
  obtain ⟨file, hfile, herror⟩ := exists_mem_of_mapM_eq_error herror
  obtain herror | ⟨_, -, ⟨⟩⟩ := bind_eq_error_iff.mp herror
  obtain ⟨f, hf, herror⟩ := exists_mem_of_mapM_eq_error herror
  obtain herror | ⟨_, -, ⟨⟩⟩ := bind_eq_error_iff.mp herror
  obtain ⟨h, hh, herror⟩ := exists_of_versionsLines_eq_error herror
  have hfunction : f ∈ m.functions := List.mem_flatMap.mpr ⟨file, hfile, hf⟩
  exact ⟨h, List.mem_flatMap.mpr ⟨f, hfunction, hh⟩, herror⟩

/-! ### Models of traces -/

/-- **Whether a model can be shown**: every compiled version can, with what is below it. -/
def Showable (lim : Limits) (m : Model) : Prop :=
  ∀ v ∈ m.compiled, Shown lim m lim.codeDepth v.handle

/-- As many levels as there are versions are no limit. -/
theorem shown_codeDepth_iff (hm : Model.Finished m) (hv : m.versions[h]? = some v) :
    Shown lim m (codeDepth lim m) h ↔ Shown lim m lim.codeDepth h := by
  have hnot := hm.isForest.not_deepFrom hm.validHandles (Model.lt_nextHandle hv)
  refine ⟨fun hshown => ⟨fun hdeep => ?_, hshown.fits⟩,
    fun hshown => ⟨fun hdeep => ?_, hshown.fits⟩⟩
  · exact hshown.shallow (hdeep.mono (min_le_right _ _))
  · rcases min_choice m.depthBound lim.codeDepth with hmin | hmin
    · rw [codeDepth, hmin] at hdeep
      exact hnot hdeep
    · rw [codeDepth, hmin] at hdeep
      exact hshown.shallow hdeep

theorem exists_compiled_of_listed (hm : Model.Finished m)
    (hh : h ∈ m.functions.flatMap (·.versions)) :
    ∃ v ∈ m.compiled, v.handle = h ∧ m.versions[h]? = some v := by
  obtain ⟨created, hindexed⟩ := hm.indexed
  obtain ⟨listed, hperm, hhandles⟩ := hindexed.exists_listed
  rw [← hhandles] at hh
  obtain ⟨v, hv, rfl⟩ := List.mem_map.mp hh
  have hcompiled := hperm.mem_iff.mp hv
  exact ⟨v, hcompiled, rfl, hm.coherent.getElem?_handle (Model.mem_compiled_iff.mp hcompiled).1⟩

/-- **There is a page** of a model of a trace just where it can be shown. -/
theorem exists_page_iff (hm : Model.Finished m) (title : String) :
    (∃ out, page lim m title = .ok out) ↔ Showable lim m := by
  rw [exists_page_iff_code]
  constructor
  · intro hall v hv
    obtain ⟨created, hindexed⟩ := hm.indexed
    obtain ⟨hmem, hcompiled⟩ := Model.mem_compiled_iff.mp hv
    have hat := hm.coherent.getElem?_handle hmem
    rw [← shown_codeDepth_iff hm hat, ← exists_codeWithin_iff hm.validHandles hat]
    exact hall v.handle ((hindexed.mem_listed_iff hmem).mpr hcompiled)
  · intro hshowable h hh
    obtain ⟨v, hv, rfl, hat⟩ := exists_compiled_of_listed hm hh
    rw [code, exists_codeWithin_iff hm.validHandles hat, shown_codeDepth_iff hm hat]
    exact hshowable v hv

/-- A page is refused for a magnitude, and not for a reference. -/
theorem tooGreat_of_page_eq_error (hm : Model.Finished m) {title : String}
    (herror : page lim m title = .error e) : TooGreat e := by
  obtain ⟨h, hh, herror⟩ := exists_of_page_eq_error herror
  obtain ⟨v, hv, rfl, hat⟩ := exists_compiled_of_listed hm hh
  rcases herror with herror | herror
  · rw [Model.version_eq_ok_iff.mpr hat] at herror
    cases herror
  · exact tooGreat_of_codeWithin_eq_error hm.validHandles hat herror

end View

namespace Summary

variable {lim : Limits} {m : Model} {h depth : Nat} {v : Version} {e : Failure}

/-- Trees are refused only where there is a way down that is one step longer. -/
theorem deepFrom_of_treesWithin_eq_error (hm : m.ValidHandles) (hv : m.versions[h]? = some v)
    (herror : treesWithin m depth v.inlines = .error e) : m.DeepFrom (depth + 1) h := by
  induction depth generalizing h v with
  | zero =>
    cases hinlines : v.inlines with
    | nil =>
      rw [hinlines] at herror
      cases herror
    | cons number more =>
      have hnumber : number ∈ v.inlines := hinlines ▸ List.mem_cons_self
      obtain ⟨c, w, -, hedge, -⟩ := hm.exists_child hv hnumber
      exact ⟨c, hedge, trivial⟩
  | succ depth ih =>
    obtain ⟨c, w, hedge, hw, herror⟩ := exists_child_of_treesWithin_eq_error hm hv herror
    exact ⟨c, hedge, ih hw herror⟩

/-- **There is a summary** of a model of a trace that can be shown. -/
theorem exists_of_showable (hm : Model.Finished m) (hshowable : View.Showable lim m) :
    ∃ s, summary lim m = .ok s := by
  rcases exists_summary_or hm with hs | ⟨-, v, hv, herror⟩
  · exact hs
  · have hat := hm.coherent.getElem?_handle (Model.mem_compiled_iff.mp hv).1
    have hdeep := deepFrom_of_treesWithin_eq_error hm.validHandles hat herror
    have hle : lim.codeDepth ≤ lim.treeDepth + 1 := Nat.le_succ_of_le lim.codeDepth_le
    exact absurd (hdeep.mono hle) (hshowable v hv).shallow

end Summary

end InlineReport
