import Mathlib.Algebra.BigOperators.Group.List.Basic
import Mathlib.Algebra.Ring.Nat
import Mathlib.Data.List.Nodup

/-!
# Counting items

Items can be counted by what they belong to: if each item belongs to one of some different keys,
then the counts under the keys add up to the number of items (`sum_length_filter`). What is
collected from items is collected from those that give something (`flatMap_filter`).
-/

namespace InlineReport

variable {α β : Type}

theorem sum_ite_eq_count [DecidableEq β] (keys : List β) (b : β) :
    (keys.map fun k => if b = k then 1 else 0).sum = keys.count b := by
  induction keys with
  | nil => rfl
  | cons k keys ih =>
    rw [List.map_cons, List.sum_cons, ih, List.count_cons, Nat.add_comm]
    simp only [beq_iff_eq, @eq_comm _ b k]

/-- **Items counted by key**, where every item has one of the keys. -/
theorem sum_length_filter [DecidableEq β] {keys : List β} (hkeys : keys.Nodup) {f : α → β}
    {l : List α} (hl : ∀ a ∈ l, f a ∈ keys) :
    (keys.map fun k => (l.filter (f · = k)).length).sum = l.length := by
  induction l with
  | nil => simp
  | cons a l ih =>
    obtain ⟨ha, hl⟩ := List.forall_mem_cons.mp hl
    have hcons : ∀ k, ((a :: l).filter (f · = k)).length =
        (if f a = k then 1 else 0) + (l.filter (f · = k)).length := fun k => by
      by_cases hk : f a = k
      · simp [hk, Nat.add_comm]
      · simp [hk]
    simp only [hcons]
    rw [List.sum_map_add, ih hl, sum_ite_eq_count, List.count_eq_one_of_mem hkeys ha,
      List.length_cons, Nat.add_comm]

/-- Items from which nothing is collected may be left out. -/
theorem flatMap_filter {p : α → Bool} {g : α → List β} {l : List α}
    (h : ∀ a ∈ l, p a = false → g a = []) : (l.filter p).flatMap g = l.flatMap g := by
  induction l with
  | nil => rfl
  | cons a l ih =>
    obtain ⟨ha, hl⟩ := List.forall_mem_cons.mp h
    cases hp : p a with
    | false => rw [List.filter_cons_of_neg (by simp [hp]), ih hl, List.flatMap_cons, ha hp,
        List.nil_append]
    | true => rw [List.filter_cons_of_pos hp, List.flatMap_cons, List.flatMap_cons, ih hl]

end InlineReport
