import InlineReport.Text.Basic

/-!
# Where a literal is found first

What `Text.upTo` passes over before it finds a literal is the text in front of the
literal's first occurrence. A text *keeps out* a literal (`Text.keepsOut`) if the literal
begins nowhere in it, whatever stands behind it. That is said of each place on its own, so
it holds of a text if it holds of its parts (`Text.keepsOut_append`), and the literal is
then found right behind (`Text.upTo_cut?`).
-/

namespace InlineReport

namespace Text

variable {lead s t : Text}

theorem isSome_cut?_iff : (cut? lead s).isSome ↔ lead <+: s := by
  rw [Option.isSome_iff_exists]
  constructor
  · rintro ⟨rest, hrest⟩
    exact ⟨rest, (cut?_eq_some_iff.mp hrest).symm⟩
  · rintro ⟨rest, rfl⟩
    exact ⟨rest, cut?_append lead rest⟩

theorem cut?_eq_none_iff : cut? lead s = none ↔ ¬ lead <+: s := by
  rw [← isSome_cut?_iff, Bool.not_eq_true, Option.isSome_eq_false_iff, Option.isNone_iff_eq_none]

/-- `Text.hasPart` asks for a literal anywhere in a text. -/
theorem hasPart_iff : hasPart lead s = true ↔ lead <:+: s := by
  induction s with
  | nil => simp [hasPart]
  | cons c s ih =>
    rw [hasPart, Bool.or_eq_true, ih, List.infix_cons_iff, isSome_cut?_iff]

/-- Whether a text differs from a literal before either of them ends. -/
def clashes : Text → Text → Bool
  | p :: lead, c :: s => p ≠ c || clashes lead s
  | _, _ => false

theorem cut?_append_of_clashes (h : clashes lead s) (rest : Text) :
    cut? lead (s ++ rest) = none := by
  induction lead generalizing s with
  | nil => simp [clashes] at h
  | cons p lead ih =>
    cases s with
    | nil => simp [clashes] at h
    | cons c s =>
      rw [List.cons_append, cut?]
      split
      · next hpc => exact ih (by simpa [clashes, hpc] using h)
      · rfl

theorem clashes_append (h : clashes lead s) (t : Text) : clashes lead (s ++ t) := by
  induction lead generalizing s with
  | nil => simp [clashes] at h
  | cons p lead ih =>
    cases s with
    | nil => simp [clashes] at h
    | cons c s =>
      simp only [clashes, List.cons_append, Bool.or_eq_true] at h ⊢
      exact h.imp_right ih

/-- Whether a literal begins nowhere in a text, whatever stands behind it. -/
def keepsOut (lead : Text) : Text → Bool
  | [] => true
  | c :: s => clashes lead (c :: s) && keepsOut lead s

theorem keepsOut_append (hs : keepsOut lead s) (ht : keepsOut lead t) :
    keepsOut lead (s ++ t) := by
  induction s with
  | nil => exact ht
  | cons c s ih =>
    simp only [keepsOut, List.cons_append, Bool.and_eq_true] at hs ⊢
    exact ⟨clashes_append hs.1 t, ih hs.2⟩

theorem keepsOut_flatMap {α : Type} {l : List α} {f : α → Text} (h : ∀ a ∈ l, keepsOut lead (f a)) :
    keepsOut lead (l.flatMap f) := by
  induction l with
  | nil => rfl
  | cons a l ih =>
    obtain ⟨ha, hl⟩ := List.forall_mem_cons.mp h
    exact keepsOut_append ha (ih hl)

/-- A text without the first character of a literal keeps it out. -/
theorem keepsOut_of_not_mem {p : Char} (h : p ∉ s) : keepsOut (p :: lead) s := by
  induction s with
  | nil => rfl
  | cons c s ih =>
    rw [List.mem_cons, not_or] at h
    obtain ⟨hc, hs⟩ := h
    simp [keepsOut, clashes, hc, ih hs]

theorem clashes_iff : clashes lead s = true ↔ ¬ lead <+: s ∧ ¬ s <+: lead := by
  induction lead generalizing s with
  | nil => simp [clashes]
  | cons p lead ih =>
    cases s with
    | nil => simp [clashes]
    | cons c s =>
      simp only [clashes, Bool.or_eq_true, decide_eq_true_eq, ih, List.cons_prefix_cons]
      by_cases hpc : p = c
      · simp [hpc]
      · simp [hpc, Ne.symm hpc]

theorem keepsOut_cons_iff {c : Char} :
    keepsOut lead (c :: s) = true ↔ clashes lead (c :: s) = true ∧ keepsOut lead s = true := by
  rw [keepsOut, Bool.and_eq_true]

theorem clashes_of_keepsOut (h : keepsOut lead s) (hts : t <:+ s) (ht : t ≠ []) :
    clashes lead t := by
  induction s with
  | nil => exact absurd (List.suffix_nil.mp hts) ht
  | cons c s ih =>
    obtain ⟨hc, hs⟩ := keepsOut_cons_iff.mp h
    rcases List.suffix_cons_iff.mp hts with rfl | hts
    · exact hc
    · exact ih hs hts

/-- A text that keeps out a literal does not hold it. -/
theorem not_infix_of_keepsOut (hlead : lead ≠ []) (h : keepsOut lead s) : ¬ lead <:+: s := by
  rintro ⟨front, behind, rfl⟩
  have hclash : clashes lead (lead ++ behind) :=
    clashes_of_keepsOut h (by rw [List.append_assoc]; exact List.suffix_append _ _)
      (by simp [hlead])
  exact (clashes_iff.mp hclash).1 (List.prefix_append _ _)

/-- A text and a literal that does not begin it differ before they end, once a character
stands behind the text that is none of the literal's. -/
theorem clashes_concat {c : Char} (hc : c ∉ lead) (h : ¬ lead <+: s) : clashes lead (s ++ [c]) := by
  refine clashes_iff.mpr ⟨fun hp => ?_, fun hp => hc (hp.subset (by simp))⟩
  rcases List.prefix_concat_iff.mp hp with heq | hp
  · exact hc (heq ▸ by simp)
  · exact h hp

/-- A text that does not hold a literal keeps it out once a character stands behind it that
is none of the literal's. -/
theorem keepsOut_concat {c : Char} (hc : c ∉ lead) (h : ¬ lead <:+: s) :
    keepsOut lead (s ++ [c]) := by
  induction s with
  | nil => simpa [keepsOut] using clashes_concat hc (fun hp => h hp.isInfix)
  | cons d s ih =>
    have hs : ¬ lead <:+: s := fun hi => h (hi.trans (List.suffix_cons d s).isInfix)
    exact keepsOut_cons_iff.mpr ⟨clashes_concat hc (fun hp => h hp.isInfix), ih hs⟩

/-- **A literal is found** behind a text that keeps it out. -/
theorem upTo_cut? (h : keepsOut lead s) (rest : Text) :
    upTo anywhere (cut? lead) (s ++ (lead ++ rest)) = some (s, rest) := by
  induction s with
  | nil =>
    rw [List.nil_append]
    -- the literal may be empty, and the text as well
    have hcut := cut?_append lead rest
    cases hs : lead ++ rest with
    | nil =>
      rw [hs] at hcut
      simp [upTo, hcut]
    | cons c s =>
      rw [hs] at hcut
      simp [upTo, hcut]
  | cons c s ih =>
    simp only [keepsOut, Bool.and_eq_true] at h
    rw [List.cons_append, upTo, ← List.cons_append, cut?_append_of_clashes h.1]
    simp [anywhere, ih h.2]

end Text

end InlineReport
