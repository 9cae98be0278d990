import InlineReport.Proofs.Text.Search
import InlineReport.Text.Markup
import Mathlib.Data.List.Forall2

/-!
# What escaping keeps out

Neither way of escaping leaves an angle bracket in a text (`Markup.plain_escapeCode`), and
the one for quoted attributes leaves no quotation mark either
(`Markup.quotable_escapeMarkup`). Each goes through a text character by character, and each
writes an angle bracket as its entity (`Markup.IsEscapeOf`). **Different texts are escaped
differently** (`Markup.escapeMarkup_injective`), since no character is written as the beginning
of what another one is written as.
-/

namespace InlineReport

/-- Whether a character is an angle bracket. -/
def isAngle (c : Char) : Bool := c = '<' ∨ c = '>'

namespace Markup

/-! ### Plain and quotable texts -/

/-- **A text without angle brackets.** -/
def Plain (s : Text) : Prop := ∀ c ∈ s, isAngle c = false

/-- **A text that may stand in quotation marks** inside a tag. -/
def Quotable (s : Text) : Prop := ∀ c ∈ s, isAngle c = false ∧ c ≠ '"'

-- the instances are named, since all characters might be gone through otherwise
instance (s : Text) : Decidable (Plain s) :=
  List.decidableBAll (fun c => isAngle c = false) s

instance (s : Text) : Decidable (Quotable s) :=
  List.decidableBAll (fun c => isAngle c = false ∧ c ≠ '"') s

variable {c : Char} {s t part : Text}

theorem Plain.append (hs : Plain s) (ht : Plain t) : Plain (s ++ t) :=
  List.forall_mem_append.mpr ⟨hs, ht⟩

theorem Quotable.append (hs : Quotable s) (ht : Quotable t) : Quotable (s ++ t) :=
  List.forall_mem_append.mpr ⟨hs, ht⟩

theorem Quotable.plain (h : Quotable s) : Plain s := fun c hc => (h c hc).1

/-! ### Escaped characters -/

theorem codeEntity_eq_self (h : isAngle c = false) : codeEntity c = [c] := by
  simp only [isAngle, decide_eq_false_iff_not, not_or] at h
  rw [codeEntity, if_neg h.2, if_neg h.1]

theorem plain_codeEntity (c : Char) : Plain (codeEntity c) := by
  unfold codeEntity
  split
  · decide
  split
  · decide
  · next h1 h2 => exact List.forall_mem_singleton.mpr (by simp [isAngle, h1, h2])

theorem quotable_entity (c : Char) : Quotable (entity c) := by
  unfold entity
  split
  · decide
  split
  · decide
  split
  · decide
  split
  · decide
  split
  · decide
  · next _ h1 h2 h3 _ =>
    exact List.forall_mem_singleton.mpr ⟨by simp [isAngle, h1, h2], h3⟩

/-- **A text that stands for a character in markup**: the character as it is written in
code or in an attribute. An angle bracket has one such text, its entity, and none of them
has an angle bracket in it. -/
structure IsEscapeOf (c : Char) (part : Text) : Prop where
  written : part = codeEntity c ∨ part = entity c
  lt : c = '<' → part = "&lt;".toList
  gt : c = '>' → part = "&gt;".toList
  plain : Plain part

theorem isEscapeOf_codeEntity (c : Char) : IsEscapeOf c (codeEntity c) where
  written := Or.inl rfl
  lt := by
    rintro rfl
    rfl
  gt := by
    rintro rfl
    rfl
  plain := plain_codeEntity c

theorem isEscapeOf_entity (c : Char) : IsEscapeOf c (entity c) where
  written := Or.inr rfl
  lt := by
    rintro rfl
    rfl
  gt := by
    rintro rfl
    rfl
  plain := (quotable_entity c).plain

/-! ### Escaped texts -/

theorem escapeCode_eq_self (h : Plain s) : escapeCode s = s := by
  induction s with
  | nil => rfl
  | cons c s ih =>
    obtain ⟨hc, hs⟩ := List.forall_mem_cons.mp h
    rw [escapeCode, List.flatMap_cons, codeEntity_eq_self hc]
    exact congrArg (c :: ·) (ih hs)

theorem plain_escapeCode (s : Text) : Plain (escapeCode s) := by
  intro c hc
  obtain ⟨d, -, hd⟩ := List.mem_flatMap.mp hc
  exact plain_codeEntity d c hd

theorem quotable_escapeMarkup (s : Text) : Quotable (escapeMarkup s) := by
  intro c hc
  obtain ⟨d, -, hd⟩ := List.mem_flatMap.mp hc
  exact quotable_entity d c hd

/-- What a text is made of, character by character. -/
theorem forall₂_map_self {r : Char → Text → Prop} {f : Char → Text} (h : ∀ c, r c (f c)) :
    List.Forall₂ r s (s.map f) :=
  List.forall₂_map_right_iff.mpr (List.forall₂_same.mpr fun c _ => h c)

/-! ### Escaped texts are different -/

/-- The characters that are written as entities, with these. -/
def entities : List (Char × Text) := [
  ('&', "&amp;".toList), ('<', "&lt;".toList), ('>', "&gt;".toList), ('"', "&quot;".toList),
  ('\'', "&#x27;".toList)]

theorem entity_cases (c : Char) : (c, entity c) ∈ entities ∨ entity c = [c] ∧ c ≠ '&' := by
  unfold entity
  split
  · next h => exact Or.inl (h ▸ by decide)
  split
  · next h => exact Or.inl (h ▸ by decide)
  split
  · next h => exact Or.inl (h ▸ by decide)
  split
  · next h => exact Or.inl (h ▸ by decide)
  split
  · next h => exact Or.inl (h ▸ by decide)
  · next h _ _ _ _ => exact Or.inr ⟨rfl, h⟩

theorem exists_of_mem_entities {e : Char × Text} (h : e ∈ entities) :
    ∃ word, e.2 = '&' :: word := by
  have hhead : ∀ e ∈ entities, e.2.head? = some '&' := by decide
  obtain ⟨word, hword⟩ := List.head?_eq_some_iff.mp (hhead e h)
  exact ⟨word, hword⟩

/-- **What a character is written as** can be told from what stands behind it. -/
theorem entity_append_inj {d : Char} (h : entity c ++ s = entity d ++ t) : c = d ∧ s = t := by
  rcases entity_cases c with hc | ⟨hc, hcamp⟩
  · rcases entity_cases d with hd | ⟨hd, hdamp⟩
    · have hclash : ∀ e ∈ entities, ∀ e' ∈ entities, e = e' ∨ Text.clashes e.2 e'.2 := by decide
      rcases hclash _ hc _ hd with heq | hclash
      · obtain ⟨rfl, -⟩ := Prod.mk.inj heq
        exact ⟨rfl, List.append_cancel_left h⟩
      · have hnone := Text.cut?_append_of_clashes hclash t
        rw [← h, Text.cut?_append] at hnone
        exact absurd hnone (by simp)
    · obtain ⟨word, hword⟩ := exists_of_mem_entities hc
      dsimp only at hword
      rw [hword, hd] at h
      exact absurd (List.cons.inj h).1.symm hdamp
  · rcases entity_cases d with hd | ⟨hd, -⟩
    · obtain ⟨word, hword⟩ := exists_of_mem_entities hd
      dsimp only at hword
      rw [hword, hc] at h
      exact absurd (List.cons.inj h).1 hcamp
    · rw [hc, hd] at h
      exact List.cons.inj h

theorem entity_ne_nil (c : Char) : entity c ≠ [] := by
  rcases entity_cases c with hc | ⟨hc, -⟩
  · obtain ⟨word, hword⟩ := exists_of_mem_entities hc
    dsimp only at hword
    simp [hword]
  · simp [hc]

/-- **Different texts are escaped differently.** -/
theorem escapeMarkup_injective : Function.Injective escapeMarkup := by
  intro s
  induction s with
  | nil =>
    intro t h
    cases t with
    | nil => rfl
    | cons d t => exact absurd (List.append_eq_nil_iff.mp h.symm).1 (entity_ne_nil d)
  | cons c s ih =>
    intro t h
    cases t with
    | nil => exact absurd (List.append_eq_nil_iff.mp h).1 (entity_ne_nil c)
    | cons d t =>
      obtain ⟨rfl, hst⟩ := entity_append_inj h
      rw [ih hst]

end Markup

end InlineReport
