import InlineReport.Proofs.Text.Reading

/-!
# Cutting a text that was put together from two

Where a text is cut at a literal, is one put together from two cut as each of them is? At the
seam a literal might begin in the first text and end in the second one. If the second text begins
with the literal itself, this would be a place where the literal overlaps itself: an end of it is
a beginning of it as well.

So **a literal that does not overlap itself** (`Text.Unbordered`) cuts the two texts apart
(`Text.split_append_split`). The same goes for a literal at the beginnings of lines, for the
newline in front of it stands nowhere in it (`Text.splitAtLines_append`). Where a literal does
overlap itself, it is found behind a text that does not end in the part in front of an overlap
(`Text.passes_of_overlaps`).
-/

namespace InlineReport

namespace Text

variable {front lead rest s t : Text}

/-! ### Overlaps -/

/-- **A literal is passed over in a text in front of it**, if the text does not hold it and does
not end in what stands in front of an overlap of the literal with itself. -/
theorem passes_of_overlaps (h : ¬ lead <:+: front)
    (hoverlap : ∀ n, 0 < n → n < lead.length → lead.drop n <+: lead → ¬ lead.take n <:+ front)
    (rest : Text) : Passes (cut? lead) front (lead ++ rest) := by
  intro y hy hne
  refine cut?_eq_none_iff.mpr fun hp => ?_
  rcases List.prefix_or_prefix_of_prefix hp (List.prefix_append y (lead ++ rest)) with
    hly | ⟨z, rfl⟩
  · exact h (hly.isInfix.trans hy.isInfix)
  cases z with
  | nil =>
    rw [List.append_nil] at h
    exact h hy.isInfix
  | cons c z =>
    -- the literal goes on behind `y`, where it begins again
    have hz : c :: z <+: y ++ c :: z ++ rest := (List.prefix_append_right_inj y).mp hp
    have hborder : c :: z <+: y ++ c :: z := by
      refine List.prefix_of_prefix_length_le hz (List.prefix_append _ rest) ?_
      rw [List.length_append]
      omega
    refine hoverlap y.length (List.length_pos_iff.mpr hne) ?_ ?_ ?_
    · rw [List.length_append, List.length_cons]
      omega
    · rwa [List.drop_left]
    · rwa [List.take_left]

/-- **A literal that does not overlap itself**: none of its ends is a beginning of it. -/
def Unbordered (lead : Text) : Prop := ∀ n < lead.length, 0 < n → ¬ lead.drop n <+: lead

instance (lead : Text) : Decidable (Unbordered lead) :=
  inferInstanceAs (Decidable (∀ n < lead.length, 0 < n → ¬ lead.drop n <+: lead))

theorem Unbordered.passes (hlead : Unbordered lead) (h : ¬ lead <:+: front) (rest : Text) :
    Passes (cut? lead) front (lead ++ rest) :=
  passes_of_overlaps h (fun n hpos hlt hborder => absurd hborder (hlead n hlt hpos)) rest

/-- A literal that does not overlap itself is found behind a text that does not hold it. -/
theorem Unbordered.upTo_cut? {isPassed : Char → Bool} (hlead : Unbordered lead)
    (hp : ∀ c ∈ front, isPassed c) (h : ¬ lead <:+: front) (rest : Text) :
    upTo isPassed (cut? lead) (front ++ (lead ++ rest)) = some (front, rest) :=
  upTo_append hp (hlead.passes h rest) (cut?_append lead rest)

/-- A literal with a first character that it does not have again. -/
theorem unbordered_of_not_mem {c : Char} (h : c ∉ lead) : Unbordered (c :: lead) := by
  intro n hlt hpos hborder
  obtain ⟨k, rfl⟩ : ∃ k, n = k + 1 := ⟨n - 1, by omega⟩
  rw [List.drop_succ_cons] at hborder
  cases hdrop : lead.drop k with
  | nil =>
    rw [List.drop_eq_nil_iff] at hdrop
    rw [List.length_cons] at hlt
    omega
  | cons d z =>
    rw [hdrop, List.cons_prefix_cons] at hborder
    have hmem : d ∈ lead := List.mem_of_mem_drop (hdrop ▸ List.mem_cons_self)
    exact h (hborder.1 ▸ hmem)

/-! ### Cutting at a literal -/

theorem not_isInfix_of_passes (hne : lead ≠ []) (h : Passes (cut? lead) front rest) :
    ¬ lead <:+: front := by
  rintro ⟨before, behind, rfl⟩
  have hsuffix : lead ++ behind <:+ before ++ lead ++ behind := by
    rw [List.append_assoc]
    exact List.suffix_append _ _
  have hnone := h _ hsuffix (List.append_ne_nil_of_left_ne_nil hne _)
  rw [List.append_assoc, cut?_append] at hnone
  cases hnone

theorem not_isInfix_of_upTo_eq_none (h : upTo anywhere (cut? lead) s = none) :
    ¬ lead <:+: s := by
  rintro ⟨before, behind, rfl⟩
  obtain ⟨first, back, hfound, -⟩ := exists_upTo_cut? before lead behind
  rw [List.append_assoc, hfound] at h
  cases h

theorem split_ne_nil (lead s : Text) : split lead s ≠ [] := by
  rw [split.eq_def]
  split
  · split <;> exact List.cons_ne_nil _ _
  · exact List.cons_ne_nil _ _

/-- **Induction on the pieces of a text** between the occurrences of a literal: a text does not hold
the literal, or it is a piece, the literal, and a text that is cut on its own. -/
theorem split_induction {motive : Text → Prop} (hne : lead ≠ [])
    (last : ∀ s, ¬ lead <:+: s → motive s)
    (cut : ∀ front behind, ¬ lead <:+: front → Passes (cut? lead) front (lead ++ behind) →
      motive behind → motive (front ++ (lead ++ behind))) (s : Text) : motive s := by
  induction s using split.induct lead with
  | case1 s front behind hfound hlength ih =>
    obtain ⟨found, rfl, hcut, -, hpasses⟩ := upTo_eq_some_iff.mp hfound
    obtain rfl := cut?_eq_some_iff.mp hcut
    exact cut front behind (not_isInfix_of_passes hne hpasses) hpasses ih
  | case2 s front behind hfound hlength =>
    -- a literal that is found is not empty, so what stands behind it is shorter
    obtain ⟨found, rfl, hcut, -⟩ := upTo_eq_some_iff.mp hfound
    obtain rfl := cut?_eq_some_iff.mp hcut
    have hpos := List.length_pos_iff.mpr hne
    simp only [List.length_append] at hlength
    omega
  | case3 s hfound => exact last s (not_isInfix_of_upTo_eq_none hfound)

/-- **Cutting goes on behind a literal as at the beginning**, if it does not overlap itself. -/
theorem split_append_split (hne : lead ≠ []) (hlead : Unbordered lead) (s rest : Text) :
    split lead (s ++ (lead ++ rest)) = split lead s ++ split lead rest := by
  induction s using split_induction hne with
  | last s hs =>
    rw [split_append hne (hlead.passes hs _), split_eq_singleton hne (passes_nil_of_not_isInfix hs),
      List.singleton_append]
  | cut front behind hfront hpasses ih =>
    have hassoc : front ++ (lead ++ behind) ++ (lead ++ rest) =
        front ++ (lead ++ (behind ++ (lead ++ rest))) := by
      simp only [List.append_assoc]
    rw [hassoc, split_append hne (hlead.passes hfront _), split_append hne hpasses, ih,
      List.cons_append]

theorem split_lead (hne : lead ≠ []) (rest : Text) :
    split lead (lead ++ rest) = [] :: split lead rest :=
  split_append hne fun _ hy hy' => absurd (List.suffix_nil.mp hy) hy'

/-! ### Cutting at lines -/

theorem closeLines_append {pieces more : List Text} (h : more ≠ []) :
    closeLines (pieces ++ more) = pieces.map (· ++ ['\n']) ++ closeLines more := by
  induction pieces with
  | nil => rfl
  | cons piece pieces ih =>
    rw [List.cons_append, closeLines_cons _ (List.append_ne_nil_of_right_ne_nil _ h), ih,
      List.map_cons, List.cons_append]

/-- A newline at the end of a text belongs to its last piece. -/
theorem closeLines_split_concat (hne : lead ≠ []) (hlead : '\n' ∉ lead) (s : Text) :
    closeLines (split ('\n' :: lead) (s ++ ['\n'])) =
      (split ('\n' :: lead) s).map (· ++ ['\n']) := by
  have hmark : '\n' :: lead ≠ [] := List.cons_ne_nil _ _
  induction s using split_induction hmark with
  | last s hs =>
    -- the literal does not end in a newline, so none ends with the one at the end
    have hconcat : ¬ ('\n' :: lead) <:+: s ++ ['\n'] := by
      intro hi
      rcases List.infix_concat_iff.mp hi with hsuffix | hi
      · rcases List.suffix_concat_iff.mp ((List.suffix_cons _ lead).trans hsuffix) with
          hnil | ⟨init, rfl, -⟩
        · exact hne hnil
        · exact hlead (by simp)
      · exact hs hi
    rw [split_eq_singleton hmark (passes_nil_of_not_isInfix hconcat),
      split_eq_singleton hmark (passes_nil_of_not_isInfix hs)]
    rfl
  | cut front behind hfront hpasses ih =>
    have hassoc : front ++ ('\n' :: lead ++ behind) ++ ['\n'] =
        front ++ ('\n' :: lead ++ (behind ++ ['\n'])) := by
      simp only [List.append_assoc]
    rw [hassoc, split_append hmark ((unbordered_of_not_mem hlead).passes hfront _),
      split_append hmark hpasses, closeLines_cons _ (split_ne_nil _ _), ih, List.map_cons]

/-- The newline in front of a line with the literal closes the piece in front of it. -/
theorem closeLines_split_append (hne : lead ≠ []) (hlead : '\n' ∉ lead) (s rest : Text) :
    closeLines (split ('\n' :: lead) (s ++ ['\n'] ++ (lead ++ rest))) =
      closeLines (split ('\n' :: lead) (s ++ ['\n'])) ++
        closeLines (split ('\n' :: lead) rest) := by
  have hassoc : s ++ ['\n'] ++ (lead ++ rest) = s ++ ('\n' :: lead ++ rest) := by simp
  rw [hassoc, split_append_split (List.cons_ne_nil _ _) (unbordered_of_not_mem hlead),
    closeLines_append (split_ne_nil _ _), closeLines_split_concat hne hlead]

theorem splitAtLines_lead (lead rest : Text) :
    splitAtLines lead (lead ++ rest) = [] :: closeLines (split ('\n' :: lead) rest) := by
  rw [splitAtLines, cut?_append]

/-- **Cutting goes on at a line that begins with a literal** as at the beginning of a text. -/
theorem splitAtLines_append (hne : lead ≠ []) (hlead : '\n' ∉ lead)
    (hs : s = [] ∨ ['\n'] <:+ s) (rest : Text) : splitAtLines lead (s ++ (lead ++ rest)) =
      splitAtLines lead s ++ closeLines (split ('\n' :: lead) rest) := by
  rcases hs with rfl | ⟨init, rfl⟩
  · have hnil : cut? lead [] = none := cut?_eq_none_iff.mpr fun h => hne (List.prefix_nil.mp h)
    have hsplit : split ('\n' :: lead) [] = [[]] :=
      split_eq_singleton (List.cons_ne_nil _ _) (by simp [Passes])
    rw [List.nil_append, splitAtLines_lead, splitAtLines, hnil]
    simp only [hsplit, closeLines, List.singleton_append]
  cases hcut : cut? lead (init ++ ['\n']) with
  | none =>
    -- the text ends in a newline, so it is no beginning of the literal either
    have hcut' : cut? lead (init ++ ['\n'] ++ (lead ++ rest)) = none := by
      refine cut?_append_of_clashes (clashes_iff.mpr ⟨cut?_eq_none_iff.mp hcut, fun hp => ?_⟩) _
      exact hlead (hp.subset (by simp))
    simp only [splitAtLines, hcut, hcut']
    exact closeLines_split_append hne hlead init rest
  | some behind =>
    have htext := cut?_eq_some_iff.mp hcut
    rcases List.eq_nil_or_concat behind with rfl | ⟨back, c, rfl⟩
    · rw [List.append_nil] at htext
      exact absurd (htext ▸ by simp) hlead
    rw [List.concat_eq_append, ← List.append_assoc] at htext
    obtain ⟨rfl, hc⟩ := List.append_inj' htext rfl
    obtain rfl := List.singleton_inj.mp hc
    have hassoc : lead ++ back ++ ['\n'] ++ (lead ++ rest) =
        lead ++ (back ++ ['\n'] ++ (lead ++ rest)) := by
      simp only [List.append_assoc]
    rw [hassoc, splitAtLines_lead, List.append_assoc lead back, splitAtLines_lead,
      closeLines_split_append hne hlead, List.cons_append]

end Text

end InlineReport
