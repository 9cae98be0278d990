import InlineReport.Proofs.Model.Ownership
import InlineReport.Proofs.View.CopyTree

/-!
# Totals and what is listed

The totals of a summary are counted in the arena of the model, and what it lists is found through
the tables of files and functions and along the placements. In a model of a trace **the two
agree** (`Summary.totals_agree`): functions list every compiled version once, no copy has
deoptimisations of its own, and where each copy is placed, it is placed below the version that
owns it.

The total of functions is another matter. It is the size of the table by name, in which two files
with functions of one name have one entry (`Summary.one_of_two_sameName`): **it counts names**
(`Summary.totals_functions_eq`), and so it is the number of functions that are listed just where no
two of them have the same name.
-/

namespace InlineReport

namespace Summary

variable {lim : Limits} {m : Model} {s : Summary} {v : Version} {code ir log : Text}

/-! ### Totals -/

theorem deopts_of_versionEntry (hv : m.versions[v.handle]? = some v) {entry : VersionEntry}
    (hentry : versionEntry lim m v.handle = .ok entry) : entry.deopts = v.deopts := by
  obtain ⟨w, hw, hentry⟩ := bind_eq_ok_iff.mp hentry
  obtain rfl := Option.some.inj (hv.symm.trans (Model.version_eq_ok_iff.mp hw))
  obtain ⟨_, -, hentry⟩ := bind_eq_ok_iff.mp hentry
  obtain ⟨_, -, hentry⟩ := bind_eq_ok_iff.mp hentry
  rw [← Except.ok.inj hentry]

/-- **The entries of a summary** are those of the compiled versions, each of them once. -/
def Lists (lim : Limits) (m : Model) (s : Summary) (r : Version → VersionEntry → Prop) : Prop :=
  ∃ listed : List Version, listed.Perm m.compiled ∧
    List.Forall₂ (fun v entry => versionEntry lim m v.handle = .ok entry ∧ r v entry) listed
      s.versionEntries

theorem lists_of_summary (hm : Model.Finished m) (hs : summary lim m = .ok s)
    {r : Version → VersionEntry → Prop}
    (hr : ∀ v ∈ m.compiled, ∀ entry, versionEntry lim m v.handle = .ok entry → r v entry) :
    Lists lim m s r := by
  obtain ⟨created, hindexed⟩ := hm.indexed
  obtain ⟨listed, hperm, hhandles⟩ := hindexed.exists_listed
  have hentries := forall₂_versionEntries hs
  rw [← hhandles, List.forall₂_map_left_iff] at hentries
  have hmem := (List.forall₂_and_left _ _).mpr ⟨fun v hv => hperm.mem_iff.mp hv, hentries⟩
  exact ⟨listed, hperm, hmem.imp fun v entry h => ⟨h.2, hr v h.1 entry h.2⟩⟩

theorem Lists.imp {r r' : Version → VersionEntry → Prop} (h : Lists lim m s r)
    (hr : ∀ v entry, r v entry → r' v entry) : Lists lim m s r' := by
  obtain ⟨listed, hperm, hentries⟩ := h
  exact ⟨listed, hperm, hentries.imp fun v entry h => ⟨h.1, hr v entry h.2⟩⟩

/-- What is summed up over entries is what is summed up over compiled versions. -/
theorem Lists.sum_eq {f : Version → Nat} {g : VersionEntry → Nat}
    (h : Lists lim m s fun v entry => f v = g entry) :
    (s.versionEntries.map g).sum = (m.compiled.map f).sum := by
  obtain ⟨listed, hperm, hentries⟩ := h
  rw [← map_eq_map_of_forall₂ hentries fun _ _ h => h.2]
  exact (hperm.map f).sum_nat

/-- **The totals of versions and deoptimisations** agree with what is listed. -/
structure Tallies (lim : Limits) (m : Model) (s : Summary) : Prop where
  listed : Lists lim m s fun v entry => entry.deopts = v.deopts
  versions_eq : s.totals.versions = s.versionEntries.length
  deopts_eq : s.totals.deopts = (s.versionEntries.map (·.deopts.length)).sum

/-- **The total of copies** agrees with what is listed, and a version counts the copies that it
owns. -/
structure TalliesCopies (lim : Limits) (m : Model) (s : Summary) : Prop where
  listed : Lists lim m s fun v entry => entry.inlineCount = (m.copiesOf v.handle).length
  copies_eq : s.totals.copies = (s.versionEntries.map (·.inlineCount)).sum

theorem totals_of_summary (hs : summary lim m = .ok s) : s.totals = totalsOf m := by
  obtain ⟨files, -, hs⟩ := bind_eq_ok_iff.mp hs
  rw [← Except.ok.inj hs]

theorem tallies_of_summary (hm : Model.Finished m) (hs : summary lim m = .ok s) :
    Tallies lim m s := by
  have hlisted : Lists lim m s fun v entry => entry.deopts = v.deopts :=
    lists_of_summary hm hs fun v hv entry hentry => by
      obtain ⟨hmem, -⟩ := Model.mem_compiled_iff.mp hv
      exact deopts_of_versionEntry (hm.coherent.getElem?_handle hmem) hentry
  refine ⟨hlisted, ?_, ?_⟩
  · obtain ⟨listed, hperm, hentries⟩ := hlisted
    rw [totals_of_summary hs, ← hentries.length_eq, hperm.length_eq]
    rfl
  · have hsum : (s.versionEntries.map (·.deopts.length)).sum =
        (m.compiled.map (·.deopts.length)).sum :=
      (hlisted.imp fun v entry h => (congrArg List.length h).symm).sum_eq
    rw [hsum, ← List.length_flatMap, hm.flatMap_deopts_compiled, totals_of_summary hs]
    rfl

theorem exists_below (lim : Limits) (hm : Model.Finished m) (hplaced : Model.AllPlaced m)
    (hv : v ∈ m.compiled) :
    ∃ below trees, View.Descends lim m v.handle v below trees ∧
      below.length = (m.copiesOf v.handle).length := by
  have hat := hm.coherent.getElem?_handle (Model.mem_compiled_iff.mp hv).1
  obtain ⟨below, trees, h⟩ := View.exists_descends hm.validHandles hm.isForest hat
  exact ⟨below, trees, h, hm.length_below hplaced hv h.nodup h.mem_iff⟩

theorem talliesCopies_of_summary (hm : Model.Finished m) (hplaced : Model.AllPlaced m)
    (hs : summary lim m = .ok s) : TalliesCopies lim m s := by
  have hlisted : Lists lim m s fun v entry => (m.copiesOf v.handle).length = entry.inlineCount :=
    lists_of_summary hm hs fun v hv entry hentry => by
      obtain ⟨below, trees, hbelow, hlength⟩ := exists_below lim hm hplaced hv
      rcases hbelow.entry with ⟨entry', hentry', -, hcount⟩ | ⟨herror, -⟩
      · rw [Except.ok.inj (hentry.symm.trans hentry'), hcount, hlength]
      · exact absurd (hentry.symm.trans herror) (by simp)
  refine ⟨hlisted.imp fun _ _ => Eq.symm, ?_⟩
  · rw [hlisted.sum_eq, hm.sum_copiesOf hplaced, totals_of_summary hs]
    rfl

/-- **There is a summary**, unless copies are nested more deeply than what is shown. -/
theorem exists_summary_or (hm : Model.Finished m) : (∃ s, summary lim m = .ok s) ∨
    summary lim m = .error Overrun.nesting ∧
      ∃ v ∈ m.compiled, treesWithin m lim.treeDepth v.inlines = .error Overrun.nesting := by
  cases hs : summary lim m with
  | ok s => exact .inl ⟨s, rfl⟩
  | error e =>
    obtain ⟨handle, hlisted, herror⟩ := exists_of_summary_eq_error hs
    obtain ⟨created, hindexed⟩ := hm.indexed
    obtain ⟨listed, hperm, hhandles⟩ := hindexed.exists_listed
    rw [← hhandles] at hlisted
    obtain ⟨v, hv, rfl⟩ := List.mem_map.mp hlisted
    have hcompiled := hperm.mem_iff.mp hv
    have hat := hm.coherent.getElem?_handle (Model.mem_compiled_iff.mp hcompiled).1
    obtain ⟨below, trees, h⟩ := View.exists_descends hm.validHandles hm.isForest hat
    rcases h.entry with ⟨entry, hentry, -⟩ | ⟨hnesting, hdeep⟩
    · exact absurd (hentry.symm.trans herror) (by simp)
    · exact .inr ⟨by rw [Except.error.inj (herror.symm.trans hnesting)], v, hcompiled, hdeep⟩

/-- **Totals agree with what is listed** in the summary of every model of a trace: every compiled
version is listed once, with its deoptimisations. Where moreover the block of every copy has a
place, a version has as many copies below it as it owns, and these are counted. -/
theorem totals_agree (h : buildModel code ir log = .ok m) :
    ((∃ s, summary lim m = .ok s) ∨ summary lim m = .error Overrun.nesting ∧
      ∃ v ∈ m.compiled, treesWithin m lim.treeDepth v.inlines = .error Overrun.nesting) ∧
    (∀ s, summary lim m = .ok s → Tallies lim m s) ∧
    ∀ sources, scanSources code = .ok sources →
      (∀ b ∈ sources, b.isInline = true → b.placement.isSome) →
      (∀ v ∈ m.compiled, ∃ below, m.descendants v.handle = .ok below ∧
        below.length = (m.copiesOf v.handle).length) ∧
      ∀ s, summary lim m = .ok s → TalliesCopies lim m s := by
  have hm := Model.finished_of_buildModel h
  refine ⟨exists_summary_or hm, fun s => tallies_of_summary hm, fun sources hscan hplaces => ?_⟩
  have hplaced := Model.allPlaced_of_buildModel h hscan hplaces
  refine ⟨fun v hv => ?_, fun s => talliesCopies_of_summary hm hplaced⟩
  obtain ⟨below, _, hbelow, hlength⟩ := exists_below lim hm hplaced hv
  exact ⟨below, hbelow.descendants_eq, hlength⟩

/-- What is shown of a summary tells that there is one. -/
theorem exists_of_shown {β : Type} {f : Summary → β} {b : β}
    (h : ((buildModel code ir log).toOption.bind fun m => (summary lim m).toOption.map f) =
      some b) :
    ∃ m s, buildModel code ir log = .ok m ∧ summary lim m = .ok s ∧ f s = b := by
  obtain ⟨m, hm, h⟩ := Option.bind_eq_some_iff.mp h
  obtain ⟨s, hs, h⟩ := Option.map_eq_some_iff.mp h
  exact ⟨m, s, toOption_eq_some_iff.mp hm, toOption_eq_some_iff.mp hs, h⟩

/-- A source stream with two compilations of `f`, of which the second one has a copy of `g` in it,
and a copy of `h` in that. -/
def nestedSources : Text :=
  ("--- FUNCTION SOURCE (a:f) id\x7b0,0\x7d ---\nx\n--- END ---\n" ++
    "[deoptimizing (DEOPT eager): begin 0x1 wrong map]\n" ++
    "--- FUNCTION SOURCE (a:f) id\x7b1,0\x7d ---\nx\n--- END ---\n" ++
    "--- FUNCTION SOURCE (a:g) id\x7b1,1\x7d ---\ny\n--- END ---\n" ++
    "INLINE (g) id\x7b1,1\x7d AS 1 AT <0:0>\n" ++
    "--- FUNCTION SOURCE (a:h) id\x7b1,2\x7d ---\nz\n--- END ---\n" ++
    "INLINE (h) id\x7b1,2\x7d AS 2 AT <1:0>\n").toList

theorem totals_agree_nestedSources :
    ∃ m s sources, buildModel nestedSources [] [] = .ok m ∧ summary .usual m = .ok s ∧
      scanSources nestedSources = .ok sources ∧
      (∀ b ∈ sources, b.isInline = true → b.placement.isSome) ∧
      s.versionEntries.map (fun entry => (entry.deopts, entry.inlineCount)) =
        [(["wrong map"], 0), ([], 2)] ∧
      Tallies .usual m s ∧ TalliesCopies .usual m s := by
  have hshown : ((buildModel nestedSources [] []).toOption.bind fun m =>
      (summary .usual m).toOption.map fun s =>
        s.versionEntries.map fun entry => (entry.deopts, entry.inlineCount)) =
      some [(["wrong map"], 0), ([], 2)] := by decide +kernel
  have hscanned : ((scanSources nestedSources).toOption.map fun sources =>
      sources.all fun b => !b.isInline || b.placement.isSome) = some true := by decide +kernel
  obtain ⟨m, s, hm, hs, hentries⟩ := exists_of_shown hshown
  obtain ⟨sources, hsources, hall⟩ := Option.map_eq_some_iff.mp hscanned
  have hsources := toOption_eq_some_iff.mp hsources
  have hplaces : ∀ b ∈ sources, b.isInline = true → b.placement.isSome := fun b hb hinline => by
    simpa [hinline] using List.all_eq_true.mp hall b hb
  obtain ⟨-, htallies, hcopies⟩ := totals_agree hm
  exact ⟨m, s, sources, hm, hs, hsources, hplaces, hentries, htallies s hs,
    (hcopies sources hsources hplaces).2 s hs⟩

/-! ### The total of functions -/

theorem map_name_functionEntries (hs : summary lim m = .ok s) :
    s.functionEntries.map (·.name) = m.functions.map (·.name) := by
  refine (map_eq_map_of_forall₂ (forall₂_functionEntries hs) fun f entry hentry => ?_).symm
  obtain ⟨_, -, hentry⟩ := bind_eq_ok_iff.mp hentry
  rw [← Except.ok.inj hentry]

/-- **The total of functions** is the number of different names among the functions listed. It is
the number of functions listed where no two of them have the same name, and only there. -/
theorem totals_functions_eq (h : buildModel code ir log = .ok m) (hs : summary lim m = .ok s) :
    s.totals.functions = (s.functionEntries.map (·.name)).dedup.length ∧
      (s.totals.functions = s.functionEntries.length ↔
        (s.functionEntries.map (·.name)).Nodup) := by
  obtain ⟨created, hindexed⟩ := (Model.finished_of_buildModel h).indexed
  have htotal : s.totals.functions = (s.functionEntries.map (·.name)).dedup.length := by
    rw [map_name_functionEntries hs, ← hindexed.size_homes, totals_of_summary hs]
    rfl
  refine ⟨htotal, ?_⟩
  rw [htotal, ← List.dedup_eq_self]
  constructor
  · intro hlength
    exact (List.dedup_sublist _).eq_of_length (by rw [hlength, List.length_map])
  · intro hdedup
    rw [hdedup, List.length_map]

/-- A source stream with a function `f` in each of two files. -/
def sameNameSources : Text :=
  ("--- FUNCTION SOURCE (a.js:f) id\x7b0,0\x7d ---\nx\n--- END ---\n" ++
    "--- FUNCTION SOURCE (b.js:f) id\x7b1,0\x7d ---\ny\n--- END ---\n").toList

/-- **Two functions of one name** are listed, and counted as one. -/
theorem one_of_two_sameName :
    ∃ m s, buildModel sameNameSources [] [] = .ok m ∧ summary .usual m = .ok s ∧
      s.totals.functions = 1 ∧ s.functionEntries.length = 2 := by
  have hshown : ((buildModel sameNameSources [] []).toOption.bind fun m =>
      (summary .usual m).toOption.map fun s => (s.totals.functions, s.functionEntries.length)) =
      some (1, 2) := by decide +kernel
  obtain ⟨m, s, hm, hs, hcounts⟩ := exists_of_shown hshown
  obtain ⟨htotal, hlength⟩ := Prod.mk.inj hcounts
  exact ⟨m, s, hm, hs, htotal, hlength⟩

theorem totals_functions_eq_sameName :
    ∃ m s, buildModel sameNameSources [] [] = .ok m ∧ summary .usual m = .ok s ∧
      s.functionEntries.map (·.name) = ["f", "f"] ∧
      s.totals.functions = (s.functionEntries.map (·.name)).dedup.length ∧
      (s.totals.functions = s.functionEntries.length ↔
        (s.functionEntries.map (·.name)).Nodup) := by
  have hshown : ((buildModel sameNameSources [] []).toOption.bind fun m =>
      (summary .usual m).toOption.map fun s => s.functionEntries.map (·.name)) =
        some ["f", "f"] := by
    decide +kernel
  obtain ⟨m, s, hm, hs, hnames⟩ := exists_of_shown hshown
  exact ⟨m, s, hm, hs, hnames, totals_functions_eq hm hs⟩

end Summary

end InlineReport
