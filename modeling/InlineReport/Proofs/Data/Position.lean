import Mathlib.Data.List.Basic
import Mathlib.Data.List.Perm.Basic

/-!
# Positions in a list

A list may be scanned for the positions at which something holds: they come out in increasing
order, so the last one is the largest (`getLast?_eq_some_iff_of_increasing`), and which ones
they are does not change when an item is changed in a way that the scan does not see
(`findIdxs_modify`). What is collected from all items is changed by what is added to one of
them (`flatMap_modify_perm`).
-/

namespace InlineReport

variable {α β : Type}

/-- **The last of an increasing list** is its largest item. -/
theorem getLast?_eq_some_iff_of_increasing {l : List Nat} (h : l.Pairwise (· < ·)) {n : Nat} :
    l.getLast? = some n ↔ n ∈ l ∧ ∀ k ∈ l, k ≤ n := by
  constructor
  · intro hlast
    obtain ⟨front, rfl⟩ := List.getLast?_eq_some_iff.mp hlast
    refine ⟨List.mem_of_getLast? hlast, fun k hk => ?_⟩
    rcases List.mem_append.mp hk with hk | hk
    · exact Nat.le_of_lt ((List.pairwise_append.mp h).2.2 k hk n (List.mem_singleton_self n))
    · exact Nat.le_of_eq (List.mem_singleton.mp hk)
  · rintro ⟨hmem, hle⟩
    cases hlast : l.getLast? with
    | none => simp [List.getLast?_eq_none_iff.mp hlast] at hmem
    | some k =>
      obtain ⟨front, rfl⟩ := List.getLast?_eq_some_iff.mp hlast
      have hk := hle k (List.mem_of_getLast? hlast)
      rcases List.mem_append.mp hmem with hmem | hmem
      · have := (List.pairwise_append.mp h).2.2 n hmem k (List.mem_singleton_self k)
        omega
      · rw [List.mem_singleton.mp hmem]

/-- A change that a scan does not see. -/
theorem findIdxs_modify {p : α → Bool} {f : α → α} (h : ∀ a, p (f a) = p a) (l : List α)
    (i start : Nat) : (l.modify i f).findIdxs p start = l.findIdxs p start := by
  induction l generalizing i start with
  | nil => simp
  | cons a l ih =>
    cases i with
    | zero => simp [List.findIdxs_cons, h]
    | succ i => simp [List.findIdxs_cons, ih]

/-- **What is collected** when one of the items gets something more. -/
theorem flatMap_modify_append_perm {f : α → α} {g : α → List β} {bs : List β} {l : List α} {i : Nat}
    {a : α} (ha : l[i]? = some a) (h : g (f a) = g a ++ bs) :
    ((l.modify i f).flatMap g).Perm (bs ++ l.flatMap g) := by
  induction l generalizing i with
  | nil => simp at ha
  | cons a' l ih =>
    cases i with
    | zero =>
      obtain rfl : a' = a := by simpa using ha
      rw [List.modify_zero_cons, List.flatMap_cons, List.flatMap_cons, h, ← List.append_assoc]
      exact List.perm_append_comm.append_right _
    | succ i =>
      rw [List.modify_succ_cons, List.flatMap_cons, List.flatMap_cons]
      refine ((ih (by simpa using ha)).append_left _).trans ?_
      rw [← List.append_assoc, ← List.append_assoc]
      exact List.perm_append_comm.append_right _

theorem flatMap_modify_perm {f : α → α} {g : α → List β} {b : β} {l : List α} {i : Nat} {a : α}
    (ha : l[i]? = some a) (h : g (f a) = g a ++ [b]) :
    ((l.modify i f).flatMap g).Perm (b :: l.flatMap g) :=
  flatMap_modify_append_perm ha h

/-- What is collected when an item is changed in a way that does not show. -/
theorem flatMap_modify {f : α → α} {g : α → List β} (h : ∀ a, g (f a) = g a) (l : List α)
    (i : Nat) : (l.modify i f).flatMap g = l.flatMap g := by
  induction l generalizing i with
  | nil => simp
  | cons a l ih =>
    cases i with
    | zero => simp [h]
    | succ i => simp [ih]

end InlineReport
