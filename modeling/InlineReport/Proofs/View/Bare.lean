import InlineReport.Model.Build
import InlineReport.Proofs.View.Code

/-!
# Code without marks

Code in which nothing is marked is shown with its angle brackets escaped, and nothing else is done
to it (`View.code_of_isBare`). An ampersand is left as it is. So code that has the entity of an
angle bracket in it is shown like the code that has the bracket itself there, and whoever reads
the page sees the latter.

**Which texts are shown in the same way** is said by `View.code_eq_code_iff`: those that are the
same once their entities have been read (`Markup.readEntities`). Texts without entities are shown
in different ways if they are different.
-/

namespace InlineReport

/-- **A version without marks**: no copies are placed in it, and no operations are left. -/
structure Version.IsBare (v : Version) : Prop where
  inlines : v.inlines = []
  runtime : v.runtime = []

namespace Markup

/-! ### Entities in code -/

/-- A text with the entities of angle brackets replaced by the brackets. -/
def readEntities : Text → Text
  | [] => []
  | '&' :: 'l' :: 't' :: ';' :: s => '<' :: readEntities s
  | '&' :: 'g' :: 't' :: ';' :: s => '>' :: readEntities s
  | c :: s => c :: readEntities s

/-- **A text without the entities** of angle brackets. -/
def EntityFree (s : Text) : Prop := ¬ "&lt;".toList <:+: s ∧ ¬ "&gt;".toList <:+: s

instance (s : Text) : Decidable (EntityFree s) :=
  inferInstanceAs (Decidable (_ ∧ _))

variable {c : Char} {s t front : Text}

theorem readEntities_cons (hlt : ¬ "&lt;".toList <+: c :: s) (hgt : ¬ "&gt;".toList <+: c :: s) :
    readEntities (c :: s) = c :: readEntities s := by
  rw [readEntities.eq_def]
  split
  · next h => exact absurd h (by simp)
  · next h => exact absurd ⟨_, h.symm⟩ hlt
  · next h => exact absurd ⟨_, h.symm⟩ hgt
  · next h =>
    obtain ⟨rfl, rfl⟩ := List.cons.inj h
    rfl

theorem not_prefix_cons (d : Char) (word : Text) (h : ∀ rest, c = d → s = word ++ rest → False) :
    ¬ d :: word <+: c :: s := by
  rintro ⟨rest, heq⟩
  exact h rest (List.cons.inj heq).1.symm (List.cons.inj heq).2.symm

/-- **A text without entities** is read as it stands. -/
theorem readEntities_eq_self (h : EntityFree s) : readEntities s = s := by
  induction s with
  | nil => rfl
  | cons c s ih =>
    have hs : EntityFree s :=
      ⟨fun hi => h.1 (List.infix_cons hi), fun hi => h.2 (List.infix_cons hi)⟩
    rw [readEntities_cons (fun hp => h.1 hp.isInfix) (fun hp => h.2 hp.isInfix), ih hs]

/-- **Escaping does not tell** an angle bracket from its entity. -/
theorem escapeCode_readEntities (s : Text) : escapeCode (readEntities s) = escapeCode s := by
  induction s using readEntities.induct with
  | case1 => rfl
  | case2 s ih => exact congrArg ("&lt;".toList ++ ·) ih
  | case3 s ih => exact congrArg ("&gt;".toList ++ ·) ih
  | case4 c s hlt hgt ih =>
    rw [readEntities_cons (not_prefix_cons '&' ['l', 't', ';'] hlt)
      (not_prefix_cons '&' ['g', 't', ';'] hgt)]
    exact congrArg (codeEntity c ++ ·) ih

theorem codeEntity_cases (c : Char) : c = '<' ∨ c = '>' ∨ codeEntity c = [c] := by
  by_cases hlt : c = '<'
  · exact Or.inl hlt
  by_cases hgt : c = '>'
  · exact Or.inr (Or.inl hgt)
  · exact Or.inr (Or.inr (codeEntity_eq_self (by simp [isAngle, hlt, hgt])))

/-- What stands in an escaped text and is no part of an entity stood there before. -/
theorem prefix_of_prefix_escapeCode (h : '&' ∉ front) (hp : front <+: escapeCode s) :
    front <+: s := by
  induction front generalizing s with
  | nil => exact List.nil_prefix
  | cons d front ih =>
    obtain ⟨hd, hfront⟩ := not_or.mp (List.mem_cons.not.mp h)
    cases s with
    | nil => exact hp
    | cons c s =>
      rcases codeEntity_cases c with rfl | rfl | hc
      · exact absurd (List.cons_prefix_cons.mp hp).1.symm hd
      · exact absurd (List.cons_prefix_cons.mp hp).1.symm hd
      · rw [escapeCode, List.flatMap_cons, hc, List.singleton_append] at hp
        obtain ⟨hdc, hrest⟩ := List.cons_prefix_cons.mp hp
        exact List.cons_prefix_cons.mpr ⟨hdc, ih hfront hrest⟩

theorem not_prefix_cons_escapeCode {word : Text} (hword : '&' ∉ word)
    (h : ¬ '&' :: word <+: c :: s) : ¬ '&' :: word <+: c :: escapeCode s := fun hp =>
  h (List.cons_prefix_cons.mpr ((List.cons_prefix_cons.mp hp).imp_right
    (prefix_of_prefix_escapeCode hword)))

/-- **Escaping leaves the entities of a text** as they are. -/
theorem readEntities_escapeCode (s : Text) : readEntities (escapeCode s) = readEntities s := by
  induction s using readEntities.induct with
  | case1 => rfl
  | case2 s ih => exact congrArg ('<' :: ·) ih
  | case3 s ih => exact congrArg ('>' :: ·) ih
  | case4 c s hlt hgt ih =>
    have hlt := not_prefix_cons '&' ['l', 't', ';'] hlt
    have hgt := not_prefix_cons '&' ['g', 't', ';'] hgt
    rw [readEntities_cons hlt hgt]
    rcases codeEntity_cases c with rfl | rfl | hc
    · exact congrArg ('<' :: ·) ih
    · exact congrArg ('>' :: ·) ih
    · -- no entity begins here after escaping if none did before
      rw [escapeCode, List.flatMap_cons, hc, List.singleton_append]
      exact (readEntities_cons (not_prefix_cons_escapeCode (by decide) hlt)
        (not_prefix_cons_escapeCode (by decide) hgt)).trans (congrArg (c :: ·) ih)

/-- **Which texts are escaped in the same way.** -/
theorem escapeCode_eq_iff : escapeCode s = escapeCode t ↔ readEntities s = readEntities t := by
  constructor
  · intro h
    rw [← readEntities_escapeCode s, h, readEntities_escapeCode]
  · intro h
    rw [← escapeCode_readEntities s, h, escapeCode_readEntities]

end Markup

namespace View

open Markup

variable {lim : Limits} {m m' : Model} {v v' : Version} {handle handle' : Int}

/-! ### Versions without marks -/

theorem splice_escapes (code : Text) : splice code (escapes 0 code) = escapeCode code := by
  have hnone : ∀ x ∈ ([] : List Marker), 0 ≤ x.mark.start := fun _ hx => absurd hx List.not_mem_nil
  obtain ⟨ordered, hordered, hsplice⟩ := Item.splice_all code hnone
  obtain rfl : ordered = [] := List.eq_nil_iff_forall_not_mem.mpr fun x hx =>
    absurd (hordered.mem_iff.mp hx) (by simp)
  have hescapes := Item.map_replacement_escapes code code 0
  rw [Item.all, List.map_nil, List.append_nil, hescapes, markedFrom, Text.behind_zero] at hsplice
  exact hsplice

theorem codeBox_inj {s t : Text} : codeBox s = codeBox t ↔ s = t := by
  simp [codeBox, concat]

/-- **A version without marks** is shown as its code, escaped. -/
theorem code_of_isBare (lim : Limits) (hv : m.version handle = .ok v) (h : v.IsBare) :
    View.code lim m handle = .ok (codeBox (escapeCode v.code)) := by
  obtain ⟨depth, hdepth⟩ : ∃ depth, codeDepth lim m = depth + 1 :=
    Nat.exists_eq_add_one.mpr (Nat.lt_min.mpr ⟨Nat.succ_pos _, lim.codeDepth_pos⟩)
  have hreplaced : replacementsWith lim m (codeWithin lim m depth) v = .ok (escapes 0 v.code) := by
    rw [replacementsWith, h.inlines, h.runtime, List.mapM_nil, List.map_nil]
    simp only [pure_bind, List.append_nil]
    rfl
  rw [View.code, hdepth, codeWithin]
  refine bind_eq_ok_iff.mpr ⟨v, hv, bind_eq_ok_iff.mpr ⟨_, hreplaced, ?_⟩⟩
  rw [splice_escapes]
  rfl

/-- **Which versions without marks are shown in the same way**: those whose codes are the same
once their entities have been read. All of them are shown, and if their codes have no entities,
different ones are shown in different ways. -/
theorem code_eq_code_iff (hv : m.version handle = .ok v) (hv' : m'.version handle' = .ok v')
    (h : v.IsBare) (h' : v'.IsBare) :
    View.code lim m handle = .ok (codeBox (escapeCode v.code)) ∧
    (View.code lim m handle = View.code lim m' handle' ↔
      readEntities v.code = readEntities v'.code) ∧
    (EntityFree v.code → EntityFree v'.code →
      (View.code lim m handle = View.code lim m' handle' ↔ v.code = v'.code)) := by
  have hiff : View.code lim m handle = View.code lim m' handle' ↔
      readEntities v.code = readEntities v'.code := by
    rw [code_of_isBare lim hv h, code_of_isBare lim hv' h', Except.ok.injEq, codeBox_inj,
      escapeCode_eq_iff]
  refine ⟨code_of_isBare lim hv h, hiff, fun hfree hfree' => ?_⟩
  rw [hiff, readEntities_eq_self hfree, readEntities_eq_self hfree']

/-- A compiled version that holds a code and nothing else. -/
def bareVersion (handle : Nat) (code : Text) : Version :=
  { handle, file := "a.js", name := "f", code, compileId := some (handle : Int) }

theorem isBare_bareVersion (handle : Nat) (code : Text) : (bareVersion handle code).IsBare :=
  ⟨rfl, rfl⟩

/-- A function that is compiled with an angle bracket for its code, then with the entity of the
bracket, and then with an ampersand. -/
def respelled : List SourceBlock :=
  ["<".toList, "&lt;".toList, "&".toList].zipIdx.map fun (code, compileId) =>
    { file := "a.js", name := "f", compileId, secondId := 0, code, deopts := [], placement := none }

/-- The model of the function. -/
def respelledModel : Model := (Model.empty.applySources respelled).model

theorem version_respelledModel :
    respelledModel.version 0 = .ok (bareVersion 0 "<".toList) ∧
    respelledModel.version 1 = .ok (bareVersion 1 "&lt;".toList) ∧
    respelledModel.version 2 = .ok (bareVersion 2 "&".toList) :=
  ⟨rfl, rfl, rfl⟩

theorem code_eq_code_respelledModel :
    View.code .usual respelledModel 0 = .ok "<div class=\"code\">&lt;</div>".toList ∧
    View.code .usual respelledModel 0 = View.code .usual respelledModel 1 ∧
    View.code .usual respelledModel 0 ≠ View.code .usual respelledModel 2 := by
  obtain ⟨hbracket, hentity, hampersand⟩ := version_respelledModel
  obtain ⟨hshown, hsame, -⟩ := code_eq_code_iff hbracket hentity (isBare_bareVersion _ _)
    (isBare_bareVersion _ _)
  obtain ⟨-, -, hother⟩ := code_eq_code_iff hbracket hampersand (isBare_bareVersion _ _)
    (isBare_bareVersion _ _)
  refine ⟨hshown, hsame.mpr rfl, fun heq => ?_⟩
  exact absurd ((hother (by decide) (by decide)).mp heq) (by decide)

/-- **Different codes that are shown in the same way**: the text of a version cannot be told from
what is shown of it. -/
theorem not_code_injective :
    ¬ ∀ (blocks : List SourceBlock) (m : Model), (Model.empty.applySources blocks).result = .ok m →
      ∀ (handle handle' : Nat) (v v' : Version), m.version handle = .ok v →
        m.version handle' = .ok v' → v.IsBare → v'.IsBare →
        View.code .usual m handle = View.code .usual m handle' → v.code = v'.code := by
  intro hall
  obtain ⟨hbracket, hentity, -⟩ := version_respelledModel
  have hshown := code_of_isBare .usual hbracket (isBare_bareVersion _ _)
  have hshown' := code_of_isBare .usual hentity (isBare_bareVersion _ _)
  have hcode := hall respelled respelledModel rfl 0 1 _ _ hbracket hentity
    (isBare_bareVersion _ _) (isBare_bareVersion _ _) (hshown.trans hshown'.symm)
  exact absurd hcode (by decide)

end View

end InlineReport
