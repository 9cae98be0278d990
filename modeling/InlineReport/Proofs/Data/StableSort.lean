import Mathlib.Data.List.Sort

/-!
# Stably sorted lists

A list is put in the order of a key, and what has the same key stays in its order. There
is exactly one way to do that: `mergeSort` gives a stably sorted list
(`stablySorted_mergeSort`), and any other one is the same (`StablySorted.eq`). So whatever
respects the key, such as leaving some items out, may as well be done before the list is
sorted (`StablySorted.filterMap`).
-/

namespace InlineReport

variable {α β : Type} {key : α → Int} {l ordered ordered' : List α}

/-- **A list in the order of a key**, with what has the same key in its old order. -/
structure StablySorted (key : α → Int) (l ordered : List α) : Prop where
  /-- Keys do not decrease. -/
  pairwise_le : ordered.Pairwise fun a b => key a ≤ key b
  /-- What has a given key is the same, in the same order. -/
  filter_eq : ∀ k, ordered.filter (key · = k) = l.filter (key · = k)

/-- A list is stably sorted if it is in order, and whatever was in order before has stayed so: the
items of one key are such a sublist. -/
theorem StablySorted.of_sublist (hsorted : ordered.Pairwise fun a b => key a ≤ key b)
    (hperm : ordered.Perm l)
    (hsub : ∀ c : List α, (c.Pairwise fun a b => key a ≤ key b) → c.Sublist l → c.Sublist ordered) :
    StablySorted key l ordered := by
  refine ⟨hsorted, fun k => ?_⟩
  have hties : (l.filter (key · = k)).Pairwise fun a b => key a ≤ key b := by
    refine List.pairwise_of_forall_mem_list fun a ha b hb => ?_
    simp only [List.mem_filter, decide_eq_true_eq] at ha hb
    omega
  have hkept := (hsub _ hties List.filter_sublist).filter (key · = k)
  simp only [List.filter_filter, Bool.and_self] at hkept
  exact (hkept.eq_of_length (hperm.filter _).length_eq.symm).symm

/-- Sorting by the key is stable. -/
theorem stablySorted_mergeSort (key : α → Int) (l : List α) :
    StablySorted key l (l.mergeSort (key · ≤ key ·)) := by
  have trans : ∀ a b c : α, decide (key a ≤ key b) = true → decide (key b ≤ key c) = true →
      decide (key a ≤ key c) = true := by
    intro a b c hab hbc
    simp only [decide_eq_true_eq] at hab hbc ⊢
    omega
  have total : ∀ a b : α, (decide (key a ≤ key b) || decide (key b ≤ key a)) = true := by
    intro a b
    simp only [Bool.or_eq_true, decide_eq_true_eq]
    omega
  exact .of_sublist ((List.pairwise_mergeSort trans total l).imp of_decide_eq_true)
    (List.mergeSort_perm l _) fun c hc hsub =>
      List.sublist_mergeSort trans total (hc.imp decide_eq_true) hsub

/-- Sorting by insertion is stable as well. -/
theorem stablySorted_insertionSort (key : α → Int) (l : List α) :
    StablySorted key l (l.insertionSort (key · ≤ key ·)) := by
  have : Std.Total fun a b : α => key a ≤ key b := ⟨fun a b => Int.le_total (key a) (key b)⟩
  have : IsTrans α fun a b => key a ≤ key b := ⟨fun a b c => Int.le_trans⟩
  exact .of_sublist (List.pairwise_insertionSort _ l) (List.perm_insertionSort _ l)
    fun c hc hsub => List.sublist_insertionSort hc hsub

namespace StablySorted

theorem mem_iff (h : StablySorted key l ordered) {a : α} : a ∈ ordered ↔ a ∈ l := by
  have hmem : a ∈ ordered.filter (key · = key a) ↔ a ∈ l.filter (key · = key a) := by
    rw [h.filter_eq]
  simpa using hmem

/-- **There is one way** to sort a list stably. -/
theorem eq (h : StablySorted key l ordered) (h' : StablySorted key l ordered') :
    ordered = ordered' := by
  have hsame : ∀ k, ordered.filter (key · = k) = ordered'.filter (key · = k) :=
    fun k => (h.filter_eq k).trans (h'.filter_eq k).symm
  have hsorted := h.pairwise_le
  have hsorted' := h'.pairwise_le
  clear h h'
  induction ordered generalizing ordered' with
  | nil =>
    cases ordered' with
    | nil => rfl
    | cons b bs => simpa using hsame (key b)
  | cons a as ih =>
    cases ordered' with
    | nil => simpa using hsame (key a)
    | cons b bs =>
      obtain ⟨ha, has⟩ := List.pairwise_cons.mp hsorted
      obtain ⟨hb, hbs⟩ := List.pairwise_cons.mp hsorted'
      have hkey : key a = key b := by
        have hmem : a ∈ b :: bs :=
          (List.mem_filter.mp (hsame (key a) ▸ List.mem_filter.mpr ⟨List.mem_cons_self, by simp⟩)).1
        have hmem' : b ∈ a :: as :=
          (List.mem_filter.mp
            ((hsame (key b)).symm ▸ List.mem_filter.mpr ⟨List.mem_cons_self, by simp⟩)).1
        rcases List.mem_cons.mp hmem with rfl | hmem
        · rfl
        rcases List.mem_cons.mp hmem' with rfl | hmem'
        · rfl
        have := hb a hmem
        have := ha b hmem'
        omega
      have hhead : a = b := by
        have := hsame (key a)
        rw [List.filter_cons_of_pos (by simp), List.filter_cons_of_pos (by simp [hkey])] at this
        exact (List.cons.inj this).1
      subst hhead
      rw [ih (fun k => ?_) has hbs]
      have := hsame k
      simp only [List.filter_cons] at this
      split at this
      · exact (List.cons.inj this).2
      · exact this

/-- **Items may be left out and changed before sorting**, if those that stay keep their
key. -/
theorem filterMap {key' : β → Int} {f : α → Option β} (h : StablySorted key l ordered)
    (hf : ∀ a b, f a = some b → key' b = key a) :
    StablySorted key' (l.filterMap f) (ordered.filterMap f) := by
  constructor
  · refine List.Pairwise.filterMap f (fun a a' hle b hb b' hb' => ?_) h.pairwise_le
    rw [hf a b hb, hf a' b' hb']
    exact hle
  · intro k
    have hfilter : ∀ l : List α,
        (l.filterMap f).filter (key' · = k) = (l.filter (key · = k)).filterMap f := by
      intro l
      rw [List.filter_filterMap, List.filterMap_filter]
      congr 1
      funext a
      cases hfa : f a with
      | none => simp
      | some b => by_cases hk : key a = k <;> simp [Option.filter, hf a b hfa, hk]
    rw [hfilter, hfilter, h.filter_eq]

/-- **Items may be changed before sorting**, if they keep their key. -/
theorem map {key' : β → Int} {f : α → β} (h : StablySorted key l ordered)
    (hf : ∀ a, key' (f a) = key a) : StablySorted key' (l.map f) (ordered.map f) := by
  rw [← List.filterMap_eq_map]
  exact h.filterMap fun a b hb => Option.some.inj hb ▸ hf a

end StablySorted

end InlineReport
