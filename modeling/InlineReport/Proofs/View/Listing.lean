import InlineReport.Proofs.Data.Outcome
import InlineReport.View.Summary

/-!
# What a summary lists

A summary lists the functions of a model and their versions file by file, as they stand in the
tables of the model: its entries are those of all functions (`Summary.forall₂_functionEntries`),
and those of all versions that functions list (`Summary.forall₂_versionEntries`). There is a
summary if all these versions have entries (`Summary.exists_of_summary_eq_error`).
-/

namespace InlineReport

namespace Summary

variable {lim : Limits} {m : Model} {s : Summary}

/-- The entries of functions, file by file. -/
def functionEntries (s : Summary) : List FunctionEntry := s.files.flatMap (·.functions)

/-- The entries of compiled versions, function by function. -/
def versionEntries (s : Summary) : List VersionEntry := s.functionEntries.flatMap (·.versions)

/-- **The functions that are listed** are all functions. -/
theorem forall₂_functionEntries (h : summary lim m = .ok s) :
    List.Forall₂ (fun f entry => functionEntry lim m f = .ok entry) m.functions
      s.functionEntries := by
  obtain ⟨files, hfiles, h⟩ := bind_eq_ok_iff.mp h
  obtain rfl := Except.ok.inj h
  refine List.rel_flatMap (mapM_eq_ok_iff.mp hfiles) fun file entry hentry => ?_
  obtain ⟨functions, hfunctions, hentry⟩ := bind_eq_ok_iff.mp hentry
  obtain rfl := Except.ok.inj hentry
  exact mapM_eq_ok_iff.mp hfunctions

/-- **The versions that are listed** are those that functions list. -/
theorem forall₂_versionEntries (h : summary lim m = .ok s) :
    List.Forall₂ (fun handle entry => versionEntry lim m handle = .ok entry)
      (m.functions.flatMap (·.versions)) s.versionEntries := by
  refine List.rel_flatMap (forall₂_functionEntries h) fun f entry hentry => ?_
  obtain ⟨versions, hversions, hentry⟩ := bind_eq_ok_iff.mp hentry
  obtain rfl := Except.ok.inj hentry
  exact mapM_eq_ok_iff.mp hversions

/-- **A summary is refused** only where the entry of a version that is listed is refused. -/
theorem exists_of_summary_eq_error {e : Failure} (h : summary lim m = .error e) :
    ∃ handle ∈ m.functions.flatMap (·.versions), versionEntry lim m handle = .error e := by
  rcases bind_eq_error_iff.mp h with h | ⟨_, -, h⟩
  swap
  · exact absurd h (by simp [pure, Except.pure])
  obtain ⟨file, hfile, h⟩ := exists_mem_of_mapM_eq_error h
  rcases bind_eq_error_iff.mp h with h | ⟨_, -, h⟩
  swap
  · exact absurd h (by simp [pure, Except.pure])
  obtain ⟨f, hf, h⟩ := exists_mem_of_mapM_eq_error h
  rcases bind_eq_error_iff.mp h with h | ⟨_, -, h⟩
  swap
  · exact absurd h (by simp [pure, Except.pure])
  obtain ⟨handle, hhandle, h⟩ := exists_mem_of_mapM_eq_error h
  have hfunction : f ∈ m.functions := List.mem_flatMap.mpr ⟨file, hfile, hf⟩
  exact ⟨handle, List.mem_flatMap.mpr ⟨f, hfunction, hhandle⟩, h⟩

end Summary

end InlineReport
