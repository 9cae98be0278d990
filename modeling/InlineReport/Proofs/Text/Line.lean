import Mathlib.Data.List.DropRight
import InlineReport.Proofs.Text.Reading
import InlineReport.Text.Line

/-!
# The last line of an output

A program that ends badly has printed anything, and of that the last line is shown which has more
than white space. This file says what is shown, for every text.

The line is looked for in the text *without the white space at its ends*
(`Text.exists_of_not_isBlank`), so it has to be said how the lines of that text lie among those of
the whole. In front of the text, white space may have lines of its own and begin the first line of
the rest, which then goes on as it would alone (`Text.exists_breakLines_append`). Behind it, white
space may only lengthen the last line and have lines of its own. **So the last line of the text
without the white space is a line of the whole but for white space at its ends**, and below it
there is nothing else (`Text.exists_breakLines_within`).

That there is a last line at all needs no more than that the text is not blank. That the line is
*not empty* needs that every line break is white space: the last character is none.
-/

namespace InlineReport

namespace Text

variable {p : Char → Bool} {c : Char} {s t line init : Text}

/-! ### Texts without the white space at their ends -/

/-- What is trimmed from a text stands at its ends. -/
theorem exists_trim (p : Char → Bool) (s : Text) : ∃ front back,
    s = front ++ trim p s ++ back ∧ (∀ c ∈ front, p c) ∧ ∀ c ∈ back, p c := by
  refine ⟨s.takeWhile p, ((s.dropWhile p).reverse.takeWhile p).reverse, ?_, ?_, ?_⟩
  · rw [trim, List.append_assoc, ← List.reverse_append, List.takeWhile_append_dropWhile,
      List.reverse_reverse, List.takeWhile_append_dropWhile]
  · exact List.all_eq_true.mp List.all_takeWhile
  · intro c hc
    exact List.all_eq_true.mp List.all_takeWhile c (List.mem_reverse.mp hc)

theorem head?_trim (h : (trim p s).head? = some c) : p c = false := by
  obtain ⟨t, ht⟩ : trim p s <+: s.dropWhile p := List.rdropWhile_prefix p _
  have hhead := List.head?_dropWhile_not p s
  rwa [← ht, List.head?_append, h] at hhead

theorem getLast?_trim (h : (trim p s).getLast? = some c) : p c = false := by
  have hhead := List.head?_dropWhile_not p (s.dropWhile p).reverse
  rw [trim, List.getLast?_reverse] at h
  rwa [h] at hhead

/-- Nothing is left of a text that is white space all through, and of no other. -/
theorem strip_eq_nil_iff : strip s = [] ↔ isBlank s = true := by
  obtain ⟨front, back, hs, hfront, hback⟩ := exists_trim InlineReport.isBlank s
  rw [← strip] at hs
  rw [isBlank, List.all_eq_true]
  constructor
  · intro hnil c hc
    rw [hs, hnil, List.append_nil, List.mem_append] at hc
    exact hc.elim (hfront c) (hback c)
  · intro hblank
    cases hstrip : strip s with
    | nil => rfl
    | cons c t =>
      have hc : InlineReport.isBlank c = false := head?_trim (congrArg List.head? hstrip)
      have hmem : c ∈ s := by
        rw [hs, hstrip]
        simp
      exact absurd (hblank c hmem) (by simp [hc])

/-- **A text that is not blank** is white space, what is left without that, and white space. -/
theorem exists_of_not_isBlank (h : isBlank s = false) : ∃ front init c back,
    s = front ++ (init ++ c :: back) ∧ strip s = init ++ [c] ∧ InlineReport.isBlank c = false ∧
      (∀ d, (init ++ [c]).head? = some d → InlineReport.isBlank d = false) ∧
      isBlank front = true ∧ isBlank back = true := by
  obtain ⟨front, back, hs, hfront, hback⟩ := exists_trim InlineReport.isBlank s
  have hne : strip s ≠ [] := by
    rw [Ne, strip_eq_nil_iff, h]
    exact Bool.false_ne_true
  obtain ⟨init, c, hinit⟩ := (List.eq_nil_or_concat (strip s)).resolve_left hne
  rw [List.concat_eq_append] at hinit
  have hlast : (strip s).getLast? = some c := by rw [hinit, List.getLast?_concat]
  refine ⟨front, init, c, back, ?_, hinit, getLast?_trim hlast, fun d hd => ?_,
    List.all_eq_true.mpr hfront, List.all_eq_true.mpr hback⟩
  · rw [← strip, hinit] at hs
    rw [hs, List.append_assoc, List.append_assoc, List.singleton_append]
  · rw [← hinit] at hd
    exact head?_trim hd

theorem isBlank_of_subset (hs : isBlank s = true) (h : t ⊆ s) : isBlank t = true :=
  List.all_eq_true.mpr fun c hc => List.all_eq_true.mp hs c (h hc)

theorem isLineBreak_eq_false (h : InlineReport.isBlank c = false) : isLineBreak c = false := by
  rw [← Bool.not_eq_true]
  intro hbreak
  rw [isBlank_of_isLineBreak hbreak] at h
  cases h

/-! ### Lines -/

theorem breakLines_cons_of_isLineBreak (h : isLineBreak c = true)
    (hpair : c = '\r' → s.head? ≠ some '\n') : breakLines (c :: s) = [] :: breakLines s := by
  rw [breakLines, if_pos h]
  rintro s rfl rfl
  exact hpair rfl rfl

theorem breakLines_cons (h : isLineBreak c = false) (s : Text) :
    breakLines (c :: s) = (c :: (breakLines s).headD []) :: (breakLines s).tail := by
  rw [breakLines, if_neg (by simp [h])]
  · cases breakLines s <;> rfl
  · rintro s rfl rfl
    exact absurd h (by decide)

/-- **Induction on a text by its line breaks**: two characters that are one break, one that is a
break on its own, and any other. -/
theorem breakLines_induction {motive : Text → Prop} (nil : motive [])
    (pair : ∀ s, motive s → motive ('\r' :: '\n' :: s))
    (single : ∀ c s, isLineBreak c = true → (c = '\r' → s.head? ≠ some '\n') → motive s →
      motive (c :: s))
    (char : ∀ c s, isLineBreak c = false → motive s → motive (c :: s)) (s : Text) : motive s := by
  induction s using breakLines.induct with
  | case1 => exact nil
  | case2 s ih => exact pair s ih
  | case3 c s hpair hbreak ih =>
    refine single c s hbreak (fun hc hs => ?_) ih
    obtain ⟨t, rfl⟩ := List.head?_eq_some_iff.mp hs
    exact hpair t hc rfl
  | case4 c s _ hbreak _ ih => exact char c s (Bool.eq_false_iff.mpr hbreak) ih
  | case5 c s _ hbreak _ _ _ ih => exact char c s (Bool.eq_false_iff.mpr hbreak) ih

/-- The lines of a text have characters of the text, and no line breaks. -/
theorem mem_of_mem_breakLines (hline : line ∈ breakLines s) (hc : c ∈ line) :
    c ∈ s ∧ isLineBreak c = false := by
  induction s using breakLines_induction generalizing line with
  | nil => cases hline
  | pair s ih =>
    rcases List.mem_cons.mp hline with rfl | hline
    · cases hc
    · exact (ih hline hc).imp_left fun h => List.mem_cons_of_mem _ (List.mem_cons_of_mem _ h)
  | single d s hbreak hpair ih =>
    rw [breakLines_cons_of_isLineBreak hbreak hpair] at hline
    rcases List.mem_cons.mp hline with rfl | hline
    · cases hc
    · exact (ih hline hc).imp_left (List.mem_cons_of_mem _)
  | char d s hchar ih =>
    rw [breakLines_cons hchar] at hline
    rcases List.mem_cons.mp hline with rfl | hline
    · rcases List.mem_cons.mp hc with rfl | hc
      · exact ⟨List.mem_cons_self, hchar⟩
      · cases hs : breakLines s with
        | nil => simp [hs] at hc
        | cons first more =>
          rw [hs, List.headD_cons] at hc
          exact (ih (hs ▸ List.mem_cons_self) hc).imp_left (List.mem_cons_of_mem _)
    · exact (ih (List.mem_of_mem_tail hline) hc).imp_left (List.mem_cons_of_mem _)

/-- **What stands in front of a text** has lines of its own, and a part that goes on in the first
line of the text. Neither depends on the text, as long as no line break lies across the seam. -/
theorem exists_breakLines_append (front : Text) : ∃ (above : List Text) (lead : Text),
    lead ⊆ front ∧ ∀ t line more, t.head? ≠ some '\n' → breakLines t = line :: more →
      breakLines (front ++ t) = above ++ (lead ++ line) :: more := by
  induction front using breakLines_induction with
  | nil => exact ⟨[], [], List.Subset.refl _, fun t line more _ h => h⟩
  | pair s ih =>
    obtain ⟨above, lead, hlead, ih⟩ := ih
    refine ⟨[] :: above, lead,
      List.subset_cons_of_subset _ (List.subset_cons_of_subset _ hlead), ?_⟩
    intro t line more ht h
    exact congrArg ([] :: ·) (ih t line more ht h)
  | single c s hbreak hpair ih =>
    obtain ⟨above, lead, hlead, ih⟩ := ih
    refine ⟨[] :: above, lead, List.subset_cons_of_subset c hlead, ?_⟩
    intro t line more ht h
    have hpair' : c = '\r' → (s ++ t).head? ≠ some '\n' := by
      cases s with
      | nil => exact fun _ => ht
      | cons d s => exact hpair
    rw [List.cons_append, breakLines_cons_of_isLineBreak hbreak hpair', ih t line more ht h,
      List.cons_append]
  | char c s hchar ih =>
    obtain ⟨above, lead, hlead, ih⟩ := ih
    cases above with
    | nil =>
      refine ⟨[], c :: lead, List.cons_subset_cons c hlead, ?_⟩
      intro t line more ht h
      rw [List.cons_append, breakLines_cons hchar, ih t line more ht h]
      rfl
    | cons first above =>
      refine ⟨(c :: first) :: above, lead, List.subset_cons_of_subset c hlead, ?_⟩
      intro t line more ht h
      rw [List.cons_append, breakLines_cons hchar, ih t line more ht h]
      rfl

/-- The lines of a text that begins with a character of a line. -/
theorem exists_breakLines_cons (hc : isLineBreak c = false) (back : Text) :
    ∃ (trail : Text) (below : List Text), breakLines (c :: back) = (c :: trail) :: below ∧
      ∀ line ∈ trail :: below, line ⊆ back := by
  refine ⟨_, _, breakLines_cons hc back, fun line hline d hd => ?_⟩
  cases hback : breakLines back with
  | nil =>
    rw [hback] at hline
    obtain rfl := List.mem_singleton.mp hline
    cases hd
  | cons first rest =>
    rw [hback] at hline
    exact (mem_of_mem_breakLines (hback ▸ hline) hd).1

/-- **The last line of a part of a text** that ends in a character of a line is a line of the text,
but for what stands around the part. -/
theorem exists_breakLines_within (front back : Text) (hc : isLineBreak c = false)
    (hhead : (init ++ [c]).head? ≠ some '\n') :
    ∃ (shown outer trail : Text) (above below : List Text),
      (breakLines (init ++ [c])).getLast? = some shown ∧ shown.getLast? = some c ∧
      breakLines (front ++ (init ++ c :: back)) = above ++ (outer ++ shown ++ trail) :: below ∧
      outer ⊆ front ∧ ∀ line ∈ trail :: below, line ⊆ back := by
  obtain ⟨above, lead, -, hinit⟩ := exists_breakLines_append init
  obtain ⟨above', lead', hlead', hfront⟩ := exists_breakLines_append front
  obtain ⟨trail, below, hback, hsubset⟩ := exists_breakLines_cons hc back
  have hstart (t : Text) : (c :: t).head? ≠ some '\n' := by
    rintro heq
    obtain rfl := Option.some.inj heq
    exact absurd hc (by decide)
  have hpart : breakLines (init ++ [c]) = above ++ [lead ++ [c]] :=
    hinit [c] [c] [] (hstart []) (breakLines_cons hc [])
  have hwhole : breakLines (init ++ c :: back) = above ++ (lead ++ c :: trail) :: below :=
    hinit (c :: back) _ _ (hstart back) hback
  have hhead' : (init ++ c :: back).head? ≠ some '\n' := by
    cases init with
    | nil => exact hhead
    | cons d init => exact hhead
  refine ⟨lead ++ [c], ?_⟩
  -- what stands in front goes on in the line itself if the part has no line above it
  cases above with
  | nil =>
    refine ⟨lead', trail, above', below, by rw [hpart, List.getLast?_concat],
      List.getLast?_concat, ?_, hlead', hsubset⟩
    rw [hfront _ _ _ hhead' hwhole]
    simp
  | cons first above =>
    refine ⟨[], trail, above' ++ (lead' ++ first) :: above, below,
      by rw [hpart, List.getLast?_concat], List.getLast?_concat,
      ?_, List.nil_subset _, hsubset⟩
    rw [hfront _ _ _ hhead' hwhole]
    simp

/-! ### The last line -/

/-- The last line that has more than white space, if the lines below it have no more. -/
theorem getLast?_filter_isBlank {above below : List Text} (hline : isBlank line = false)
    (hbelow : ∀ l ∈ below, isBlank l = true) :
    ((above ++ line :: below).filter (!isBlank ·)).getLast? = some line := by
  have hnil : below.filter (!isBlank ·) = [] :=
    List.filter_eq_nil_iff.mpr fun l hl => by simp [hbelow l hl]
  rw [List.filter_append, List.filter_cons_of_pos (by simp [hline]), hnil, List.getLast?_append]
  rfl

/-- **What is shown of the last line** that has more than white space: it has no line break, it
ends in a character that is not white space, and only white space of the line is left out. -/
structure IsLastShown (s shown : Text) : Prop where
  unbroken : ∀ c ∈ shown, isLineBreak c = false
  ends : ∃ c, shown.getLast? = some c ∧ InlineReport.isBlank c = false
  part : ∃ line outer trail, ((breakLines s).filter (!isBlank ·)).getLast? = some line ∧
    line = outer ++ shown ++ trail ∧ isBlank outer = true ∧ isBlank trail = true

theorem lastLine?_of_isBlank (h : isBlank s = true) : lastLine? s = some [] := by
  simp only [lastLine?, strip_eq_nil_iff.mpr h]
  rfl

/-- **A text that is not blank has a last line** to be shown. -/
theorem exists_lastLine? (h : isBlank s = false) :
    ∃ shown, lastLine? s = some shown ∧ IsLastShown s shown := by
  obtain ⟨front, init, c, back, rfl, hstrip, hc, hhead, hfront, hback⟩ := exists_of_not_isBlank h
  have hnewline : (init ++ [c]).head? ≠ some '\n' := fun heq => absurd (hhead _ heq) (by decide)
  obtain ⟨shown, outer, trail, above, below, hlast, hends, hlines, houter, hsubset⟩ :=
    exists_breakLines_within front back (isLineBreak_eq_false hc) hnewline
  obtain ⟨htrail, hbelow⟩ := List.forall_mem_cons.mp hsubset
  have hmem : c ∈ outer ++ shown ++ trail := by simp [List.mem_of_getLast? hends]
  refine ⟨shown, ?_, ?_, ⟨c, hends, hc⟩, outer ++ shown ++ trail, outer, trail, ?_, rfl,
    isBlank_of_subset hfront houter, isBlank_of_subset hback htrail⟩
  · simp only [lastLine?, hstrip]
    rw [if_neg (by simp), hlast]
  · exact fun d hd => (mem_of_mem_breakLines (List.mem_of_getLast? hlast) hd).2
  · rw [hlines]
    exact getLast?_filter_isBlank (isBlank_eq_false hmem hc) fun l hl =>
      isBlank_of_subset hback (hbelow l hl)

end Text

end InlineReport
