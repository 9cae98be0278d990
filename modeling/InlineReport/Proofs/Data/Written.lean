import InlineReport.Data.Form
import InlineReport.Proofs.Data.Outcome

/-!
# Which values can be written

A value is written with all that is in it, container by container. A container that stands
inside itself is not entered again, so that this comes to an end. It need not come to a good one:
a whole number may have too many digits, and containers may be nested too deeply.

**Nothing else is in the way.** What is met while a value is written (`Value.Shows`) is told
without writing it, as is what cannot be written where it is met (`Value.Obstacle`), and a value
has a text exactly where it meets no obstacle (`Value.exists_text_iff`).
-/

namespace InlineReport

/-- The values that are written between the brackets of a container. -/
def Container.parts : Container → List Value
  | list items | set items => items
  | table entries => entries.flatMap fun (key, value) => [key, value]
  | pair first second => [first, second]

namespace Value

variable {lim : Limits} {store : Store} {root v : Value} {inside : List Nat} {limit : Overrun}
  {e : Failure}

/-- What is met while a value is written, inside the containers of the given numbers. -/
inductive Shows (store : Store) (root : Value) : List Nat → Value → Prop
  | root : Shows store root [] root
  | part {inside : List Nat} {n : Nat} {part : Value} (hn : Shows store root inside (.container n))
      (hout : n ∉ inside) (hpart : part ∈ (store.at' n).parts) :
      Shows store root (n :: inside) part

/-- A whole number of too many digits. -/
def IsLong (v : Value) : Prop :=
  ∃ n : Int, v = .int n ∧ Digit.longestRun < (Nat.toDigits 10 n.natAbs).length

/-- What cannot be written inside the containers of the given numbers, and why. -/
inductive Obstacle (lim : Limits) : List Nat → Value → Overrun → Prop
  | digits {inside : List Nat} {v : Value} (h : v.IsLong) : Obstacle lim inside v .digits
  | nesting {inside : List Nat} {n : Nat} (h : lim.formDepth ≤ inside.length) :
      Obstacle lim inside (.container n) .nesting

/-- Whether an obstacle is met while a value is written. -/
def Unwritable (lim : Limits) (store : Store) (v : Value) (limit : Overrun) : Prop :=
  ∃ inside u, Shows store v inside u ∧ Obstacle lim inside u limit

/-! ### Whole numbers -/

theorem isLong_int_iff {n : Int} :
    (Value.int n).IsLong ↔ Digit.longestRun < (Nat.toDigits 10 n.natAbs).length := by
  simp [IsLong]

theorem intText_of_isLong {n : Int} (h : (Value.int n).IsLong) :
    intText n = .error Overrun.digits :=
  if_neg (Nat.not_le.mpr (isLong_int_iff.mp h))

theorem exists_intText {n : Int} (h : ¬ (Value.int n).IsLong) : ∃ t, intText n = .ok t :=
  ⟨_, if_pos (Nat.not_lt.mp (mt isLong_int_iff.mpr h))⟩

/-! ### Containers -/

/-- The form of an entry of a table. -/
def entryForm (form : Value → Except Failure Text) (entry : Value × Value) :
    Except Failure Text :=
  return (← form entry.1) ++ ": ".toList ++ (← form entry.2)

/-- What is written between the brackets of a container. -/
def partForms (form : Value → Except Failure Text) : Container → Except Failure (List Text)
  | .list items | .set items => items.mapM form
  | .table entries => entries.mapM (entryForm form)
  | .pair first second => [first, second].mapM form

theorem exists_entryForm_iff {form : Value → Except Failure Text} {entry : Value × Value} :
    (∃ t, entryForm form entry = .ok t) ↔
      (∃ t, form entry.1 = .ok t) ∧ ∃ t, form entry.2 = .ok t := by
  unfold entryForm
  rw [exists_bind_eq_ok_iff]
  simp only [exists_bind_pure_eq_ok_iff]
  exact exists_and_right

theorem formIn_container {depth n : Nat} (hout : n ∉ inside) :
    formIn store (depth + 1) inside (.container n) =
      (partForms (formIn store depth (n :: inside)) (store.at' n)).map
        (store.at' n).brackets.around := by
  rw [formIn]
  simp only [List.contains_iff_mem, hout, if_false]
  unfold partForms
  cases store.at' n <;> rfl

theorem exists_partForms_iff {form : Value → Except Failure Text} {c : Container} :
    (∃ ts, partForms form c = .ok ts) ↔ ∀ part ∈ c.parts, ∃ t, form part = .ok t := by
  cases c with
  | list items => exact exists_mapM_eq_ok_iff
  | set items => exact exists_mapM_eq_ok_iff
  | table entries =>
    refine exists_mapM_eq_ok_iff.trans ?_
    simp only [exists_entryForm_iff, Container.parts, List.mem_flatMap, List.mem_cons,
      List.not_mem_nil, or_false]
    constructor
    · rintro h part ⟨entry, hentry, rfl | rfl⟩
      · exact (h entry hentry).1
      · exact (h entry hentry).2
    · intro h entry hentry
      exact ⟨h entry.1 ⟨entry, hentry, .inl rfl⟩, h entry.2 ⟨entry, hentry, .inr rfl⟩⟩
  | pair first second => exact exists_mapM_eq_ok_iff

theorem exists_part_of_partForms {form : Value → Except Failure Text} {c : Container}
    (h : partForms form c = .error e) : ∃ part ∈ c.parts, form part = .error e := by
  cases c with
  | list items => exact exists_mem_of_mapM_eq_error h
  | set items => exact exists_mem_of_mapM_eq_error h
  | table entries =>
    obtain ⟨entry, hentry, h⟩ := exists_mem_of_mapM_eq_error h
    have hparts {part : Value} (hpart : part = entry.1 ∨ part = entry.2) :
        part ∈ (Container.table entries).parts :=
      List.mem_flatMap.mpr ⟨entry, hentry, by simpa using hpart⟩
    rcases bind_eq_error_iff.mp h with h | ⟨_, -, h⟩
    · exact ⟨entry.1, hparts (.inl rfl), h⟩
    · rcases bind_eq_error_iff.mp h with h | ⟨_, -, ⟨⟩⟩
      exact ⟨entry.2, hparts (.inr rfl), h⟩
  | pair first second => exact exists_mem_of_mapM_eq_error h

/-! ### Forms -/

theorem exists_of_intText {n : Int} (hv : Shows store root inside (.int n))
    (h : intText n = .error e) : ∃ limit, e = .overrun limit ∧ Unwritable lim store root limit := by
  by_cases hlong : (Value.int n).IsLong
  · rw [intText_of_isLong hlong] at h
    cases h
    exact ⟨.digits, rfl, inside, _, hv, .digits hlong⟩
  · obtain ⟨t, ht⟩ := exists_intText hlong
    rw [ht] at h
    cases h

theorem formIn_of_mem {depth n : Nat} (hin : n ∈ inside) :
    formIn store (depth + 1) inside (.container n) =
      .ok ((store.at' n).brackets.around ["...".toList]) := by
  rw [formIn, if_pos (List.contains_iff_mem.mpr hin)]

/-- A form that is refused meets an obstacle. The depth that is left goes down as the containers
around what is written become more. -/
theorem unwritable_of_formIn {depth : Nat} (hdepth : depth + inside.length = lim.formDepth)
    (hv : Shows store root inside v) (h : formIn store depth inside v = .error e) :
    ∃ limit, e = .overrun limit ∧ Unwritable lim store root limit := by
  induction depth generalizing inside v with
  | zero =>
    cases v with
    | int n => exact exists_of_intText hv h
    | container n =>
      cases h
      exact ⟨.nesting, rfl, inside, _, hv, .nesting (by omega)⟩
    | _ => cases h
  | succ depth ih =>
    cases v with
    | int n => exact exists_of_intText hv h
    | container n =>
      by_cases hin : n ∈ inside
      · rw [formIn_of_mem hin] at h
        cases h
      · rw [formIn_container hin] at h
        obtain ⟨part, hpart, h⟩ := exists_part_of_partForms (map_eq_error_iff.mp h)
        exact ih (by rw [List.length_cons]; omega) (.part hv hin hpart) h
    | _ => cases h

/-- Where a value has a form, each value that is met has one at the depth that is left. -/
theorem exists_formIn_of_shows {t : Text} (h : formIn store lim.formDepth [] root = .ok t)
    (hv : Shows store root inside v) :
    ∃ depth t, depth + inside.length = lim.formDepth ∧ formIn store depth inside v = .ok t := by
  induction hv with
  | root => exact ⟨lim.formDepth, t, rfl, h⟩
  | @part inside n part _ hout hpart ih =>
    obtain ⟨depth, t, hdepth, ht⟩ := ih
    cases depth with
    | zero => cases ht
    | succ depth =>
      rw [formIn_container hout] at ht
      obtain ⟨ts, hts, -⟩ := map_eq_ok_iff.mp ht
      obtain ⟨t', ht'⟩ := exists_partForms_iff.mp ⟨ts, hts⟩ part hpart
      exact ⟨depth, t', by rw [List.length_cons]; omega, ht'⟩

/-- **A value has a form** where no obstacle is met. -/
theorem exists_formIn_iff :
    (∃ t, formIn store lim.formDepth [] v = .ok t) ↔ ∀ limit, ¬ Unwritable lim store v limit := by
  refine exists_eq_ok_iff_forall_not ?_ fun e he => ?_
  · rintro t ht limit ⟨inside, u, hu, hobstacle⟩
    obtain ⟨depth, t', hdepth, ht'⟩ := exists_formIn_of_shows ht hu
    cases hobstacle with
    | digits hlong =>
      obtain ⟨n, rfl, -⟩ := id hlong
      have hint : intText n = .ok t' := by
        cases depth <;> exact ht'
      rw [intText_of_isLong hlong] at hint
      cases hint
    | nesting hdeep =>
      obtain rfl : depth = 0 := by omega
      cases ht'
  · obtain ⟨limit, -, hlimit⟩ := unwritable_of_formIn rfl .root he
    exact ⟨limit, hlimit⟩

/-! ### Texts -/

/-- There is nothing in a value that is no container. -/
theorem Shows.eq_root (h : Shows store root inside v) (hkey : root.isKey = true) : v = root := by
  induction h with
  | root => rfl
  | part _ _ _ ih =>
    rw [← ih] at hkey
    cases hkey

/-- A value that is no container cannot be written if it is a long number, and only then. -/
theorem unwritable_iff_of_isKey (hkey : v.isKey = true) :
    Unwritable lim store v limit ↔ limit = .digits ∧ v.IsLong := by
  constructor
  · rintro ⟨inside, u, hu, hobstacle⟩
    obtain rfl := hu.eq_root hkey
    cases hobstacle with
    | digits hlong => exact ⟨rfl, hlong⟩
    | nesting => cases hkey
  · rintro ⟨rfl, hlong⟩
    exact ⟨[], v, .root, .digits hlong⟩

theorem not_isLong_of_ne_int (h : ∀ n, v ≠ .int n) : ¬ v.IsLong := by
  rintro ⟨n, rfl, -⟩
  exact h n rfl

/-- The text of a value is its form, unless it is a string, a date or an instant; these have no
obstacle. -/
theorem text_eq_formIn_or (lim : Limits) (store : Store) (v : Value) :
    v.text lim store = (formIn store lim.formDepth [] v).map Text.wide ∨
      (∃ t, v.text lim store = .ok t) ∧ ∀ limit, ¬ Unwritable lim store v limit := by
  have hplain {v : Value} (hkey : v.isKey = true) (hint : ∀ n, v ≠ .int n) :
      ∀ limit, ¬ Unwritable lim store v limit := fun limit h =>
    not_isLong_of_ne_int hint ((unwritable_iff_of_isKey hkey).mp h).2
  cases v with
  | string s => exact .inr ⟨⟨_, rfl⟩, hplain rfl (by simp)⟩
  | date d => exact .inr ⟨⟨_, rfl⟩, hplain rfl (by simp)⟩
  | instant t => exact .inr ⟨⟨_, rfl⟩, hplain rfl (by simp)⟩
  | _ => exact .inl rfl

/-- **A value has a text** where no obstacle is met. -/
theorem exists_text_iff :
    (∃ t, v.text lim store = .ok t) ↔ ∀ limit, ¬ Unwritable lim store v limit := by
  rcases text_eq_formIn_or lim store v with htext | ⟨htext, hfree⟩
  · rw [htext, exists_map_eq_ok_iff, exists_formIn_iff]
  · exact iff_of_true htext hfree

/-- **A text that is refused** meets an obstacle, and that is the reason. -/
theorem unwritable_of_text (h : v.text lim store = .error e) :
    ∃ limit, e = .overrun limit ∧ Unwritable lim store v limit := by
  rcases text_eq_formIn_or lim store v with htext | ⟨⟨t, ht⟩, -⟩
  · rw [htext, map_eq_error_iff] at h
    exact unwritable_of_formIn rfl .root h
  · rw [ht] at h
    cases h

end Value

end InlineReport
