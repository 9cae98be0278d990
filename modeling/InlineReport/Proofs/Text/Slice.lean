import InlineReport.Text.Basic

/-!
# Slices between offsets that do not count from the end

For offsets that are not negative a slice is a `take` of a `drop`, and offsets beyond the
text need no case of their own. What a report does with slices comes down to two facts:
two slices that meet are one slice (`Text.slice_append_slice`), and a slice and what lies
behind it are what lies behind its start (`Text.slice_append_behind`).
-/

namespace InlineReport

namespace Text

variable {s : Text} {start middle stop : Int}

/-! ### Slices as parts of a list -/

theorem bound_of_nonneg {size : Nat} {i : Int} (h : 0 ≤ i) : bound size i = min i.toNat size :=
  if_neg (by omega)

theorem before_eq_take (h : 0 ≤ stop) : before stop s = s.take stop.toNat := by
  rw [before, bound_of_nonneg h]
  exact List.take_eq_take_min.symm

theorem behind_eq_drop (h : 0 ≤ start) : behind start s = s.drop start.toNat := by
  rw [behind, bound_of_nonneg h]
  rcases Nat.le_total start.toNat s.length with hle | hle
  · rw [Nat.min_eq_left hle]
  · rw [Nat.min_eq_right hle, List.drop_length, List.drop_eq_nil_of_le hle]

theorem slice_eq_take_drop (h : 0 ≤ start) (h' : 0 ≤ stop) :
    slice start stop s = (s.drop start.toNat).take (stop.toNat - start.toNat) := by
  have hdrop : s.drop (bound s.length start) = s.drop start.toNat := behind_eq_drop h
  rw [slice, hdrop, List.take_eq_take_iff, bound_of_nonneg h, bound_of_nonneg h', List.length_drop]
  omega

theorem length_behind (h : 0 ≤ start) : (behind start s).length = s.length - start.toNat := by
  rw [behind_eq_drop h, List.length_drop]

theorem length_slice (h : 0 ≤ start) (h' : 0 ≤ stop) :
    (slice start stop s).length = min (stop.toNat - start.toNat) (s.length - start.toNat) := by
  rw [slice_eq_take_drop h h', List.length_take, List.length_drop]

theorem mem_slice {c : Char} (h : 0 ≤ start) (h' : 0 ≤ stop) (hc : c ∈ slice start stop s) :
    ∃ i : Nat, start ≤ i ∧ i < stop ∧ s[i]? = some c := by
  rw [slice_eq_take_drop h h'] at hc
  obtain ⟨j, hj⟩ := List.mem_iff_getElem?.mp hc
  rw [List.getElem?_take] at hj
  split at hj
  · rw [List.getElem?_drop] at hj
    exact ⟨start.toNat + j, by omega, by omega, hj⟩
  · exact absurd hj (by simp)

theorem slice_succ {i : Nat} {c : Char} (h : s[i]? = some c) : slice i (i + 1) s = [c] := by
  obtain ⟨hlt, rfl⟩ := List.getElem?_eq_some_iff.mp h
  rw [slice_eq_take_drop (by omega) (by omega), Int.toNat_natCast,
    show (i + 1 : Int).toNat - i = 1 by omega, List.drop_eq_getElem_cons hlt]
  rfl

theorem mem_behind {c : Char} (h : 0 ≤ start) (hc : c ∈ behind start s) :
    ∃ i : Nat, start ≤ i ∧ s[i]? = some c := by
  rw [behind_eq_drop h] at hc
  obtain ⟨j, hj⟩ := List.mem_iff_getElem?.mp hc
  rw [List.getElem?_drop] at hj
  exact ⟨start.toNat + j, by omega, hj⟩

@[simp]
theorem behind_zero : behind 0 s = s := by
  rw [behind_eq_drop (Int.le_refl 0)]
  rfl

/-! ### Slices side by side -/

/-- **A slice and what lies behind it** are what lies behind its start. -/
theorem slice_append_behind (h : 0 ≤ start) (h' : start ≤ stop) :
    slice start stop s ++ behind stop s = behind start s := by
  rw [slice_eq_take_drop h (by omega), behind_eq_drop (by omega), behind_eq_drop h]
  have hstop : stop.toNat = start.toNat + (stop.toNat - start.toNat) := by omega
  rw [hstop, ← List.drop_drop, Nat.add_sub_cancel_left]
  exact List.take_append_drop _ _

/-- **Two slices that meet** are one slice. -/
theorem slice_append_slice (h : 0 ≤ start) (h' : start ≤ middle) (h'' : middle ≤ stop) :
    slice start middle s ++ slice middle stop s = slice start stop s := by
  rw [slice_eq_take_drop h (by omega), slice_eq_take_drop (by omega) (by omega),
    slice_eq_take_drop h (by omega)]
  have hmiddle : middle.toNat = start.toNat + (middle.toNat - start.toNat) := by omega
  have hstop : stop.toNat - start.toNat =
      middle.toNat - start.toNat + (stop.toNat - middle.toNat) := by omega
  rw [hstop, List.take_add, List.drop_drop, ← hmiddle]

end Text

end InlineReport
