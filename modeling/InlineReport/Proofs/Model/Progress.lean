import InlineReport.Model.Build

/-!
# Steps that may stop the work

Work has a result only if none of its steps has failed, and then the result of each step
is what the next one starts from (`Progress.result_andThen_eq_ok_iff`). So what every step
preserves holds of the result of any number of steps (`Progress.forAll_induction`). What is
preserved may be relative to a record of the steps that have been taken.

Work that has stopped leaves a model too. **What holds of it** is what every step preserves
whether or not it fails (`Progress.model_forAll_induction`); the record is then of the
items that the work has got to, the one that failed among them (`Progress.attempted`).
**Where it stopped** is `Progress.failure_forAll_eq_some_iff`: behind items that have all
gone well.
-/

namespace InlineReport

namespace Progress

variable {α σ : Type} {m m' : Model}

theorem model_eq_of_result {p : Progress} (h : p.result = .ok m) : p.model = m := by
  obtain ⟨m', failure⟩ := p
  cases failure with
  | none => exact Except.ok.inj h
  | some e => exact absurd h (by simp [result])

theorem result_andThen_eq_ok_iff {p : Progress} {step : Model → Progress} :
    (p.andThen step).result = .ok m' ↔ ∃ m, p.result = .ok m ∧ (step m).result = .ok m' := by
  obtain ⟨m, failure⟩ := p
  cases failure with
  | none => simp [andThen, result]
  | some e => simp [andThen, result]

/-- **What each step preserves**, relative to a record of the steps, the whole run
preserves. -/
theorem forAll_induction (step : Model → α → Progress) (record : σ → α → σ)
    (inv : σ → Model → Prop)
    (hstep : ∀ s m item m', inv s m → (step m item).result = .ok m' → inv (record s item) m')
    {s : σ} {items : List α} (hs : inv s m) (h : (forAll step m items).result = .ok m') :
    inv (items.foldl record s) m' := by
  induction items generalizing s m with
  | nil =>
    obtain rfl := Except.ok.inj h
    exact hs
  | cons item items ih =>
    rw [forAll_cons] at h
    obtain ⟨next, hnext, h⟩ := result_andThen_eq_ok_iff.mp h
    exact ih (hstep _ _ _ _ hs hnext) h

/-- What each step preserves, relative to the items that have been gone through. -/
theorem forAll_items_induction (step : Model → α → Progress) (inv : List α → Model → Prop)
    (hstep : ∀ before m item m', inv before m → (step m item).result = .ok m' →
      inv (before ++ [item]) m')
    {items : List α} (hs : inv [] m) (h : (forAll step m items).result = .ok m') :
    inv items m' := by
  have hrun := forAll_induction step (fun before item => before ++ [item]) inv hstep hs h
  have hitems : items.foldl (fun before item => before ++ [item]) [] = items := by
    rw [List.foldl_append_eq_append, List.nil_append, ← List.flatMap_def, List.flatMap_singleton']
  rwa [hitems] at hrun

/-! ### Where the work stopped -/

theorem failure_eq_none_iff {p : Progress} : p.failure = none ↔ ∃ m, p.result = .ok m := by
  obtain ⟨m, failure⟩ := p
  cases failure with
  | none => simp [result]
  | some e => simp [result]

theorem result_eq_error_iff {p : Progress} {e : Failure} :
    p.result = .error e ↔ p.failure = some e := by
  obtain ⟨m, failure⟩ := p
  cases failure with
  | none => simp [result]
  | some e => simp [result]

theorem failure_andThen_eq_some_iff {p : Progress} {step : Model → Progress} {e : Failure} :
    (p.andThen step).failure = some e ↔
      p.failure = some e ∨ ∃ m, p.result = .ok m ∧ (step m).failure = some e := by
  obtain ⟨m, failure⟩ := p
  cases failure with
  | none => simp [andThen, result]
  | some e => simp [andThen, result]

/-- A run over one list after another. -/
theorem forAll_append (step : Model → α → Progress) (m : Model) (items items' : List α) :
    forAll step m (items ++ items') =
      (forAll step m items).andThen fun m => forAll step m items' := by
  induction items generalizing m with
  | nil => rfl
  | cons item items ih =>
    rw [List.cons_append, forAll_cons, forAll_cons]
    obtain ⟨next, failure⟩ := step m item
    cases failure with
    | none => exact ih next
    | some e => rfl

/-- **A run fails** at the first item whose step fails. -/
theorem failure_forAll_eq_some_iff {step : Model → α → Progress} {items : List α} {e : Failure} :
    (forAll step m items).failure = some e ↔
      ∃ before item after m', items = before ++ item :: after ∧
        (forAll step m before).result = .ok m' ∧ (step m' item).failure = some e := by
  constructor
  · intro h
    induction items generalizing m with
    | nil => exact absurd h (by simp)
    | cons item items ih =>
      rw [forAll_cons] at h
      rcases failure_andThen_eq_some_iff.mp h with h | ⟨next, hnext, h⟩
      · exact ⟨[], item, items, m, rfl, rfl, h⟩
      · obtain ⟨before, item', after, m', rfl, hbefore, hfail⟩ := ih h
        refine ⟨item :: before, item', after, m', rfl, ?_, hfail⟩
        rw [forAll_cons]
        exact result_andThen_eq_ok_iff.mpr ⟨next, hnext, hbefore⟩
  · rintro ⟨before, item, after, m', rfl, hbefore, hfail⟩
    rw [forAll_append]
    refine failure_andThen_eq_some_iff.mpr (Or.inr ⟨m', hbefore, ?_⟩)
    rw [forAll_cons]
    exact failure_andThen_eq_some_iff.mpr (Or.inl hfail)

/-! ### What the work leaves -/

/-- **The items that the work gets to**: those before the first one that fails, and that
one. -/
def attempted (step : Model → α → Progress) : Model → List α → List α
  | _, [] => []
  | m, item :: items =>
    item :: if (step m item).failure.isSome then [] else attempted step (step m item).model items

/-- **What each step preserves**, whether it fails or not, a run preserves, whether it
fails or not. -/
theorem model_forAll_induction (step : Model → α → Progress) (record : σ → α → σ)
    (inv : σ → Model → Prop)
    (hstep : ∀ s m item, inv s m → inv (record s item) (step m item).model)
    {s : σ} {items : List α} (hs : inv s m) :
    inv ((attempted step m items).foldl record s) (forAll step m items).model := by
  induction items generalizing s m with
  | nil => exact hs
  | cons item items ih =>
    have hnext := hstep s m item hs
    rw [forAll_cons, attempted, List.foldl_cons]
    generalize step m item = p at hnext ⊢
    obtain ⟨next, failure⟩ := p
    cases failure with
    | none => exact ih hnext
    | some e => exact hnext

/-- What each step preserves, whatever the steps have been. -/
theorem model_forAll (step : Model → α → Progress) (inv : Model → Prop)
    (hstep : ∀ m item, inv m → inv (step m item).model) {items : List α} (hm : inv m) :
    inv (forAll step m items).model :=
  model_forAll_induction step (fun s _ => s) (fun (_ : Unit) => inv) (fun _ => hstep) (s := ()) hm

theorem model_andThen {inv : Model → Prop} {p : Progress} {step : Model → Progress}
    (hp : inv p.model) (hstep : ∀ m, inv m → inv (step m).model) :
    inv (p.andThen step).model := by
  obtain ⟨m, failure⟩ := p
  cases failure with
  | none => exact hstep m hp
  | some e => exact hp

end Progress

/-- Nothing is changed where the placements are looked over. -/
theorem Model.eq_of_requireForest {m m' : Model} (h : m.requireForest.result = .ok m') :
    m' = m := by
  unfold requireForest at h
  split at h
  · exact absurd h (by simp [Progress.result])
  · exact (Except.ok.inj h).symm
  · exact absurd h (by simp [Progress.result])

end InlineReport
