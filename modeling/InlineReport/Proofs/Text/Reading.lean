import InlineReport.Text.Blank
import InlineReport.Text.Digit
import InlineReport.Proofs.Text.Search

/-!
# Reading a text that was put together from parts

A scanner meets a text whose parts are known: a field, a literal, another field, and more
text behind. This file says where the walks of `InlineReport.Text.Basic` stop in such a text.

Each walk tries its reader at one place after the other, so all that is needed about a front
part is that the reader applies at none of its places (`Text.Passes`). For a reader that
begins with a literal there are two ways to see that:

* the front **keeps out** the literal, whatever stands behind it (`Text.passes_of_keepsOut`);
* the front does not hold the literal, and the character behind it can only be the literal's
  first one (`Text.passes_of_not_isInfix`).

A literal that begins with a newline is looked for line by line instead: it stands in a text
only if a line of the text begins with the rest of it (`Text.exists_mem_lines_of_isInfix`).
-/

namespace InlineReport

namespace Text

variable {α : Type} {next : Text → Option α} {isPassed : Char → Bool} {a : α}
variable {front lead rest s t : Text}

/-! ### Passing over a text -/

/-- A reader applies nowhere in `front`, with `rest` behind it. -/
def Passes (next : Text → Option α) (front rest : Text) : Prop :=
  ∀ y, y <:+ front → y ≠ [] → next (y ++ rest) = none

/-- A reader that applies only where a literal stands. -/
def ReadsBehind (lead : Text) (next : Text → Option α) : Prop :=
  ∀ s, cut? lead s = none → next s = none

theorem Passes.of_suffix (h : Passes next front rest) (hs : s <:+ front) : Passes next s rest :=
  fun y hy => h y (hy.trans hs)

theorem passes_cons_iff {c : Char} :
    Passes next (c :: front) rest ↔ next (c :: front ++ rest) = none ∧ Passes next front rest := by
  constructor
  · intro h
    exact ⟨h _ List.suffix_rfl (by simp), h.of_suffix (List.suffix_cons c front)⟩
  · rintro ⟨hc, h⟩ y hy hne
    rcases List.suffix_cons_iff.mp hy with rfl | hy
    · exact hc
    · exact h y hy hne

/-- A reader behind a literal passes over what the literal is passed over in. -/
theorem Passes.behind (h : Passes (cut? lead) front rest) (hnext : ReadsBehind lead next) :
    Passes next front rest :=
  fun y hy hne => hnext _ (h y hy hne)

theorem passes_of_keepsOut (h : keepsOut lead front) (rest : Text) :
    Passes (cut? lead) front rest :=
  fun _ hy hne => cut?_append_of_clashes (clashes_of_keepsOut h hy hne) rest

/-- A literal is passed over in a text that does not hold it and has nothing behind it. -/
theorem passes_nil_of_not_isInfix (h : ¬ lead <:+: s) : Passes (cut? lead) s [] := by
  intro y hy _
  rw [List.append_nil, cut?_eq_none_iff]
  exact fun hp => h (hp.isInfix.trans hy.isInfix)

/-- A literal is passed over in a text that does not hold it, if the character behind the text
does not stand in the literal but in its first place. -/
theorem passes_of_not_isInfix {c : Char} (hc : c ∉ lead.tail) (h : ¬ lead <:+: front) :
    Passes (cut? lead) front (c :: rest) := by
  intro y hy hne
  refine cut?_eq_none_iff.mpr fun hp => h ?_
  rcases List.prefix_or_prefix_of_prefix hp (List.prefix_append y (c :: rest)) with hly | ⟨z, rfl⟩
  · exact hly.isInfix.trans hy.isInfix
  · -- the literal would reach over `c`, in a place that is not its first
    have hz : z <+: c :: rest := (List.prefix_append_right_inj y).mp hp
    cases y with
    | nil => exact absurd rfl hne
    | cons d y =>
      cases z with
      | nil => simpa using hy.isInfix
      | cons e z =>
        obtain ⟨rfl, -⟩ := List.cons_prefix_cons.mp hz
        exact absurd (by simp) hc

/-- A character that is passed over as a literal stands nowhere. -/
theorem not_mem_of_passes {c : Char} (h : Passes (cut? [c]) front rest) : c ∉ front := by
  intro hc
  obtain ⟨before, behind, rfl⟩ := List.append_of_mem hc
  have hnone := h (c :: behind) (List.suffix_append _ _) (by simp)
  simp [cut?] at hnone

theorem not_mem_of_forall {p : Char → Bool} {c : Char} (h : ∀ d ∈ s, p d) (hc : p c = false) :
    c ∉ s :=
  fun hm => Bool.eq_false_iff.mp hc (h c hm)

theorem forall_bne {c : Char} (h : c ∉ s) : ∀ d ∈ s, (d != c) = true := by
  intro d hd
  exact bne_iff_ne.mpr fun heq => h (heq ▸ hd)

theorem forall_onLine (h : '\n' ∉ s) : ∀ c ∈ s, onLine c = true := forall_bne h

theorem forall_anywhere (s : Text) : ∀ c ∈ s, anywhere c = true := fun _ _ => rfl

/-- Two texts that a character ends for the first time are the same if the wholes are. -/
theorem eq_of_append_cons_eq {c : Char} {rest' : Text} (hs : c ∉ s) (ht : c ∉ t)
    (h : s ++ c :: rest = t ++ c :: rest') : s = t := by
  induction s generalizing t with
  | nil =>
    cases t with
    | nil => rfl
    | cons d t =>
      rw [List.nil_append, List.cons_append, List.cons.injEq] at h
      exact absurd (h.1 ▸ List.mem_cons_self) ht
  | cons d s ih =>
    cases t with
    | nil =>
      rw [List.nil_append, List.cons_append, List.cons.injEq] at h
      exact absurd (h.1 ▸ List.mem_cons_self) hs
    | cons e t =>
      rw [List.cons_append, List.cons_append, List.cons.injEq] at h
      obtain ⟨rfl, h⟩ := h
      have hs' : c ∉ s := fun hm => hs (List.mem_cons_of_mem d hm)
      have ht' : c ∉ t := fun hm => ht (List.mem_cons_of_mem d hm)
      rw [ih hs' ht' h]

/-- A literal in a text begins where its first character is. -/
theorem prefix_or_infix_of_isInfix {c : Char} (hf : c ∉ front)
    (h : (c :: lead) <:+: front ++ c :: rest) : lead <+: rest ∨ (c :: lead) <:+: rest := by
  induction front with
  | nil =>
    rcases List.infix_cons_iff.mp h with hp | hi
    · exact .inl (List.cons_prefix_cons.mp hp).2
    · exact .inr hi
  | cons d front ih =>
    rw [List.mem_cons, not_or] at hf
    obtain ⟨hd, hf⟩ := hf
    rcases List.infix_cons_iff.mp h with hp | hi
    · exact absurd (List.cons_prefix_cons.mp hp).1 hd
    · exact ih hf hi

/-! ### The first and the last place -/

/-- What `Text.upTo` passes over. -/
theorem upTo_append (hp : ∀ c ∈ front, isPassed c) (hf : Passes next front rest)
    (h : next rest = some a) : upTo isPassed next (front ++ rest) = some (front, a) := by
  induction front with
  | nil => cases rest <;> simp [upTo, h]
  | cons c front ih =>
    obtain ⟨hc, hf⟩ := passes_cons_iff.mp hf
    obtain ⟨hpc, hp⟩ := List.forall_mem_cons.mp hp
    rw [List.cons_append] at hc ⊢
    simp [upTo, hc, hpc, ih hp hf]

/-- **What `Text.upTo` finds** is the first place where the reader applies. -/
theorem upTo_eq_some_iff : upTo isPassed next s = some (front, a) ↔
    ∃ rest, s = front ++ rest ∧ next rest = some a ∧ (∀ c ∈ front, isPassed c) ∧
      Passes next front rest := by
  constructor
  · intro h
    induction s generalizing front with
    | nil =>
      simp only [upTo, Option.map_eq_some_iff, Prod.mk.injEq] at h
      obtain ⟨b, hb, rfl, rfl⟩ := h
      exact ⟨[], rfl, hb, by simp, by simp [Passes]⟩
    | cons c s ih =>
      unfold upTo at h
      split at h
      next b hb =>
        simp only [Option.some.injEq, Prod.mk.injEq] at h
        obtain ⟨rfl, rfl⟩ := h
        exact ⟨c :: s, rfl, hb, by simp, by simp [Passes]⟩
      next hnone =>
        split at h
        next hc =>
          simp only [Option.map_eq_some_iff, Prod.mk.injEq] at h
          obtain ⟨⟨f, b⟩, hf, rfl, rfl⟩ := h
          obtain ⟨rest, rfl, hrest, hpassed, hpass⟩ := ih hf
          exact ⟨rest, rfl, hrest, List.forall_mem_cons.mpr ⟨hc, hpassed⟩,
            passes_cons_iff.mpr ⟨hnone, hpass⟩⟩
        next => cases h
  · rintro ⟨rest, rfl, hrest, hpassed, hpass⟩
    exact upTo_append hpassed hpass hrest

/-- A character is found behind a text without it. -/
theorem upTo_cut?_char {c : Char} (hp : ∀ d ∈ front, isPassed d) (h : c ∉ front)
    (lead rest : Text) :
    upTo isPassed (cut? (c :: lead)) (front ++ (c :: lead ++ rest)) = some (front, rest) :=
  upTo_append hp (passes_of_keepsOut (keepsOut_of_not_mem h) _) (cut?_append _ _)

/-- A literal that stands in a text is found there, or further to the front. -/
theorem exists_upTo_cut? (front lead rest : Text) :
    ∃ first back, upTo anywhere (cut? lead) (front ++ (lead ++ rest)) = some (first, back) ∧
      rest <:+ back := by
  induction front with
  | nil =>
    have hup : upTo anywhere (cut? lead) ([] ++ (lead ++ rest)) = some ([], rest) :=
      upTo_append (by simp) (by simp [Passes]) (cut?_append _ _)
    exact ⟨[], rest, hup, List.suffix_rfl⟩
  | cons c front ih =>
    cases hcut : cut? lead (c :: front ++ (lead ++ rest)) with
    | some back =>
      refine ⟨[], back, by rw [List.cons_append] at hcut ⊢; simp [upTo, hcut], ?_⟩
      -- both texts end this one, and what stands in front of `back` is not longer than what does
      -- in front of `rest`
      have htext := cut?_eq_some_iff.mp hcut
      have hlen := congrArg List.length htext
      have hrest : rest <:+ c :: front ++ (lead ++ rest) :=
        (List.suffix_append _ _).trans (List.suffix_append _ _)
      have hback : back <:+ c :: front ++ (lead ++ rest) := htext ▸ List.suffix_append _ _
      refine List.suffix_of_suffix_length_le hrest hback ?_
      simp only [List.length_append, List.length_cons] at hlen
      omega
    | none =>
      obtain ⟨first, back, hup, hback⟩ := ih
      refine ⟨c :: first, back, ?_, hback⟩
      rw [List.cons_append] at hcut ⊢
      simp [upTo, hcut, hup, anywhere]

theorem upTo_eq_none (hs : Passes next s []) (h : next [] = none) :
    upTo isPassed next s = none := by
  induction s with
  | nil => simp [upTo, h]
  | cons c s ih =>
    obtain ⟨hc, hs⟩ := passes_cons_iff.mp hs
    rw [List.append_nil] at hc
    simp [upTo, hc, ih hs]

theorem upToLast_cons_of_some {c : Char} (h : upToLast next s = some (front, a)) :
    upToLast next (c :: s) = some (c :: front, a) := by
  simp [upToLast, h]

/-- There is no last place where a reader applies if there is none at all. -/
theorem upToLast_eq_none_iff : upToLast next s = none ↔ ∀ y, y <:+ s → next y = none := by
  induction s with
  | nil => simp [upToLast]
  | cons c s ih =>
    simp only [List.suffix_cons_iff, forall_eq_or_imp, ← ih, upToLast]
    cases upToLast next s <;> simp

/-- **What `Text.upToLast` finds** is the last place where the reader applies. -/
theorem upToLast_eq_some_iff : upToLast next s = some (front, a) ↔
    ∃ rest, s = front ++ rest ∧ next rest = some a ∧
      ∀ y, y <:+ rest → y ≠ rest → next y = none := by
  induction s generalizing front with
  | nil =>
    simp only [upToLast, Option.map_eq_some_iff, Prod.mk.injEq]
    constructor
    · rintro ⟨b, hb, rfl, rfl⟩
      exact ⟨[], rfl, hb, fun y hy hne => absurd (List.suffix_nil.mp hy) hne⟩
    · rintro ⟨rest, hnil, hrest, -⟩
      obtain ⟨rfl, rfl⟩ := List.append_eq_nil_iff.mp hnil.symm
      exact ⟨a, hrest, rfl, rfl⟩
  | cons c s ih =>
    constructor
    · intro h
      unfold upToLast at h
      split at h
      next f b hf =>
        simp only [Option.some.injEq, Prod.mk.injEq] at h
        obtain ⟨rfl, rfl⟩ := h
        obtain ⟨rest, rfl, hrest⟩ := ih.mp hf
        exact ⟨rest, rfl, hrest⟩
      next hnone =>
        simp only [Option.map_eq_some_iff, Prod.mk.injEq] at h
        obtain ⟨b, hb, rfl, rfl⟩ := h
        refine ⟨c :: s, rfl, hb, fun y hy hne => ?_⟩
        exact upToLast_eq_none_iff.mp hnone y ((List.suffix_cons_iff.mp hy).resolve_left hne)
    · rintro ⟨rest, hs, hrest, hlast⟩
      cases front with
      | nil =>
        rw [List.nil_append] at hs
        subst hs
        have hnone : upToLast next s = none := by
          refine upToLast_eq_none_iff.mpr fun y hy => hlast y (hy.trans (List.suffix_cons c s)) ?_
          rintro rfl
          exact absurd hy.length_le (by simp)
        simp [upToLast, hnone, hrest]
      | cons d f =>
        obtain ⟨rfl, rfl⟩ := List.cons.inj hs
        exact upToLast_cons_of_some (ih.mpr ⟨rest, rfl, hrest, hlast⟩)

theorem upToLast_eq_none (hs : Passes next s []) (h : next [] = none) : upToLast next s = none := by
  refine upToLast_eq_none_iff.mpr fun y hy => ?_
  by_cases hne : y = []
  · rw [hne, h]
  · simpa using hs y hy hne

/-- The last place where a reader applies is the one behind which it applies no more. -/
theorem upToLast_append {c : Char} (h : next (c :: rest) = some a) (hr : Passes next rest [])
    (hnil : next [] = none) (front : Text) :
    upToLast next (front ++ c :: rest) = some (front, a) := by
  induction front with
  | nil => simp [upToLast, upToLast_eq_none hr hnil, h]
  | cons d front ih => exact upToLast_cons_of_some ih

/-! ### Every place -/

theorem readAll_nil {next : Text → Option (α × Text)} (h : next [] = none) :
    readAll next [] = [] := by
  unfold readAll
  simp [h]

/-- A find of more than nothing is the first one, and the search goes on behind it. -/
theorem readAll_cons {next : Text → Option (α × Text)} (h : next (front ++ rest) = some (a, rest))
    (hne : front ≠ []) : readAll next (front ++ rest) = a :: readAll next rest := by
  have hl : rest.length < (front ++ rest).length := by
    have := List.length_pos_iff.mpr hne
    simp only [List.length_append]
    omega
  rw [readAll.eq_def]
  simp only [h, if_pos hl]

theorem readAll_append {next : Text → Option (α × Text)} (hf : Passes next front rest) :
    readAll next (front ++ rest) = readAll next rest := by
  induction front with
  | nil => rfl
  | cons c front ih =>
    obtain ⟨hc, hf⟩ := passes_cons_iff.mp hf
    rw [List.cons_append] at hc ⊢
    rw [readAll.eq_def]
    simp only [hc]
    exact ih hf

theorem split_append (hm : lead ≠ []) (hf : Passes (cut? lead) front (lead ++ rest)) :
    split lead (front ++ (lead ++ rest)) = front :: split lead rest := by
  have hl : rest.length < (front ++ (lead ++ rest)).length := by
    have := List.length_pos_iff.mpr hm
    simp only [List.length_append]
    omega
  have hcut := upTo_append (forall_anywhere front) hf (cut?_append lead rest)
  rw [split.eq_def, hcut]
  simp only [if_pos hl]

theorem split_eq_singleton (hm : lead ≠ []) (hs : Passes (cut? lead) s []) :
    split lead s = [s] := by
  have hnil : cut? lead [] = none :=
    cut?_eq_none_iff.mpr fun h => hm (List.prefix_nil.mp h)
  rw [split.eq_def, upTo_eq_none hs hnil]

/-- Cutting at a literal undoes putting it in front of each of a list of parts that do not
hold it. -/
theorem split_flatMap (hm : lead ≠ []) {parts : List Text} (h : ∀ part ∈ parts, keepsOut lead part)
    (hs : keepsOut lead s) :
    split lead (s ++ parts.flatMap (lead ++ ·)) = s :: parts := by
  induction parts generalizing s with
  | nil => simpa using split_eq_singleton hm (passes_of_keepsOut hs [])
  | cons part parts ih =>
    obtain ⟨hpart, hparts⟩ := List.forall_mem_cons.mp h
    rw [List.flatMap_cons, List.append_assoc, split_append hm (passes_of_keepsOut hs _),
      ih hparts hpart]

/-! ### Runs and blanks -/

theorem drop_length_takeWhile (p : Char → Bool) (s : Text) :
    s.drop (s.takeWhile p).length = s.dropWhile p := by
  induction s with
  | nil => rfl
  | cons c s ih => by_cases h : p c <;> simp [h, ih]

theorem takeWhile_append_cons {p : Char → Bool} {c : Char} (hf : ∀ d ∈ front, p d)
    (hc : p c = false) : (front ++ c :: rest).takeWhile p = front := by
  rw [List.takeWhile_append_of_pos hf]
  simp [hc]

theorem dropWhile_append_cons {p : Char → Bool} {c : Char} (hf : ∀ d ∈ front, p d)
    (hc : p c = false) : (front ++ c :: rest).dropWhile p = c :: rest := by
  rw [List.dropWhile_append_of_pos hf]
  simp [hc]

/-- A run ends at the first character that is not of its class. -/
theorem run?_append {p : Char → Bool} {c : Char} (hne : front ≠ []) (hf : ∀ d ∈ front, p d)
    (hc : p c = false) : run? p (front ++ c :: rest) = some (front, c :: rest) := by
  rw [run?, takeWhile_append_cons hf hc, dropWhile_append_cons hf hc, if_neg (by simpa using hne)]

theorem suffix_of_run? {p : Char → Bool} {s front t : Text} (h : run? p s = some (front, t)) :
    t <:+ s :=
  (run?_eq_some h).1 ▸ List.suffix_append front t

theorem suffix_of_cut? {lead s t : Text} (h : cut? lead s = some t) : t <:+ s :=
  cut?_eq_some_iff.mp h ▸ List.suffix_append lead t

theorem stripLeft_append {c : Char} (hs : ∀ d ∈ s, InlineReport.isBlank d)
    (hc : InlineReport.isBlank c = false) : stripLeft (s ++ c :: rest) = c :: rest :=
  dropWhile_append_cons hs hc

/-- A text with a character that is not white space is not blank. -/
theorem isBlank_eq_false {c : Char} (h : c ∈ s) (hc : InlineReport.isBlank c = false) :
    isBlank s = false := by
  rw [isBlank, List.all_eq_false]
  exact ⟨c, h, by simp [hc]⟩

/-- Nothing but the empty text in front of the parts is left out with what is blank. -/
theorem filter_nil_cons {parts : List Text} (h : ∀ part ∈ parts, isBlank part = false) :
    ([] :: parts).filter (!isBlank ·) = parts := by
  have hnil : isBlank [] = true := rfl
  rw [List.filter_cons_of_neg (by simp [hnil]), List.filter_eq_self]
  intro part hpart
  rw [h part hpart, Bool.not_false]

/-! ### Lines -/

theorem lines_ne_nil (s : Text) : lines s ≠ [] := by
  cases s with
  | nil => simp [lines]
  | cons c s =>
    unfold lines
    split
    · simp
    · split <;> simp

theorem lines_cons_of_ne {c : Char} (hc : c ≠ '\n') (s : Text) :
    ∃ line more, lines s = line :: more ∧ lines (c :: s) = (c :: line) :: more := by
  cases h : lines s with
  | nil => exact absurd h (lines_ne_nil s)
  | cons line more => exact ⟨line, more, rfl, by simp [lines, hc, h]⟩

/-- A newline ends a line. -/
theorem lines_append_newline (s t : Text) : lines (s ++ '\n' :: t) = lines s ++ lines t := by
  induction s with
  | nil => simp [lines]
  | cons c s ih =>
    by_cases hc : c = '\n'
    · simp [lines, hc, ih]
    · obtain ⟨line, more, hs, hcs⟩ := lines_cons_of_ne hc s
      obtain ⟨line', more', hst, hcst⟩ := lines_cons_of_ne hc (s ++ '\n' :: t)
      rw [ih, hs, List.cons_append, List.cons.injEq] at hst
      obtain ⟨rfl, rfl⟩ := hst
      rw [List.cons_append, hcst, hcs, List.cons_append]

/-- A text without a newline begins a line. -/
theorem lines_append_of_not_mem (h : '\n' ∉ s) (t : Text) :
    ∃ line more, lines t = line :: more ∧ lines (s ++ t) = (s ++ line) :: more := by
  induction s with
  | nil =>
    cases ht : lines t with
    | nil => exact absurd ht (lines_ne_nil t)
    | cons line more => exact ⟨line, more, rfl, ht⟩
  | cons c s ih =>
    rw [List.mem_cons, not_or] at h
    obtain ⟨hc, hs⟩ := h
    obtain ⟨line, more, ht, hst⟩ := ih hs
    obtain ⟨line', more', hst', hcst⟩ := lines_cons_of_ne (Ne.symm hc) (s ++ t)
    rw [hst, List.cons.injEq] at hst'
    obtain ⟨rfl, rfl⟩ := hst'
    exact ⟨line, more, ht, hcst⟩

theorem lines_of_not_mem (h : '\n' ∉ s) : lines s = [s] := by
  obtain ⟨line, more, hnil, hs⟩ := lines_append_of_not_mem h []
  rw [lines, List.cons.injEq] at hnil
  obtain ⟨rfl, rfl⟩ := hnil
  simpa using hs

/-- The lines of a text that ends each of its lines. -/
theorem lines_flatMap {ls : List Text} (h : ∀ l ∈ ls, '\n' ∉ l) :
    lines (ls.flatMap (· ++ ['\n'])) = ls ++ [[]] := by
  induction ls with
  | nil => rfl
  | cons l ls ih =>
    obtain ⟨hl, hls⟩ := List.forall_mem_cons.mp h
    rw [List.flatMap_cons, List.append_assoc, List.singleton_append, lines_append_newline,
      lines_of_not_mem hl, ih hls, List.singleton_append, List.cons_append]

/-- A literal behind a newline stands at the beginning of a line that is not the first. -/
theorem exists_mem_lines_of_isInfix (hlead : '\n' ∉ lead) (h : ('\n' :: lead) <:+: s) :
    ∃ l ∈ (lines s).tail, lead <+: l := by
  obtain ⟨front, back, rfl⟩ := h
  obtain ⟨line, more, -, hlines⟩ := lines_append_of_not_mem hlead back
  refine ⟨lead ++ line, ?_, List.prefix_append lead line⟩
  have hs : front ++ '\n' :: lead ++ back = front ++ '\n' :: (lead ++ back) := by simp
  rw [hs, lines_append_newline, hlines, List.tail_append_of_ne_nil (lines_ne_nil front)]
  simp

theorem closeLines_cons (piece : Text) {pieces : List Text} (h : pieces ≠ []) :
    closeLines (piece :: pieces) = (piece ++ ['\n']) :: closeLines pieces := by
  cases pieces with
  | nil => exact absurd rfl h
  | cons next more => rfl

/-- A section between two lines that begin with a literal: it ends its last line, and none of
its lines but the first begins with the literal. -/
def IsSection (lead part : Text) : Prop := ['\n'] <:+ part ∧ ¬ ('\n' :: lead) <:+: part

theorem closeLines_split_flatMap (hlead : '\n' ∉ lead) {part : Text} {parts : List Text}
    (hpart : IsSection lead part) (hparts : ∀ p ∈ parts, IsSection lead p) :
    closeLines (split ('\n' :: lead) (part ++ parts.flatMap (lead ++ ·))) = part :: parts := by
  induction parts generalizing part with
  | nil =>
    rw [List.flatMap_nil, List.append_nil,
      split_eq_singleton (by simp) (passes_nil_of_not_isInfix hpart.2)]
    rfl
  | cons next parts ih =>
    obtain ⟨hnext, hmore⟩ := List.forall_mem_cons.mp hparts
    obtain ⟨⟨init, rfl⟩, hin⟩ := hpart
    -- the newline that ends the part is the one in front of the literal
    have hpass : Passes (cut? ('\n' :: lead)) init
        ('\n' :: (lead ++ (next ++ parts.flatMap (lead ++ ·)))) :=
      passes_of_not_isInfix hlead fun hi => hin (hi.trans (List.prefix_append _ _).isInfix)
    have htext : init ++ ['\n'] ++ (next :: parts).flatMap (lead ++ ·) =
        init ++ ('\n' :: lead ++ (next ++ parts.flatMap (lead ++ ·))) := by
      simp
    have ih := ih hnext hmore
    rw [htext, split_append (by simp) hpass, closeLines_cons _ fun hnil => ?_, ih]
    rw [hnil] at ih
    exact absurd ih (by simp [closeLines])

/-- Cutting at the lines that begin with a literal undoes putting it in front of each of a list
of texts. -/
theorem splitAtLines_flatMap (hlead : '\n' ∉ lead) {parts : List Text} (h : parts ≠ [])
    (hparts : ∀ p ∈ parts, IsSection lead p) :
    splitAtLines lead (parts.flatMap (lead ++ ·)) = [] :: parts := by
  cases parts with
  | nil => exact absurd rfl h
  | cons part parts =>
    obtain ⟨hpart, hparts⟩ := List.forall_mem_cons.mp hparts
    rw [List.flatMap_cons, List.append_assoc, splitAtLines, cut?_append]
    exact congrArg ([] :: ·) (closeLines_split_flatMap hlead hpart hparts)

end Text

end InlineReport
