/-!
# Texts and the ways through them

Everything a trace holds is read, cut and counted in characters, so a *text* is a
plain list of characters and an offset is a number of them. This file has the few
ways in which such a list is walked, each a recursion on the list itself.

A **reader** is a function from the text ahead to what it makes of it, or `none`
where it does not apply. `Text.upTo` finds the *first* place at which a reader
applies, passing over characters it is allowed to pass over; `Text.upToLast` finds
the *last* one; `Text.readAll` collects everything a reader finds, from left to
right and without overlap. The scanners of the trace streams are built from these
three, and what they accept is read off the readers.
-/

namespace InlineReport

/-- A text, counted in characters. -/
abbrev Text := List Char

namespace Text

variable {α : Type}

/-! ### Literals -/

/-- The rest of a text behind a literal that it starts with. -/
def cut? : Text → Text → Option Text
  | [], s => some s
  | _ :: _, [] => none
  | p :: ps, c :: s => if p = c then cut? ps s else none

theorem cut?_eq_some_iff {lead s rest : Text} : cut? lead s = some rest ↔ s = lead ++ rest := by
  induction lead generalizing s with
  | nil => simp [cut?, eq_comm]
  | cons p ps ih =>
    cases s with
    | nil => simp [cut?]
    | cons c s =>
      by_cases h : p = c
      · simp [cut?, h, ih]
      · simp [cut?, h, Ne.symm h]

@[simp]
theorem cut?_append (lead rest : Text) : cut? lead (lead ++ rest) = some rest :=
  cut?_eq_some_iff.mpr rfl

/-- Whether a literal occurs anywhere in a text. -/
def hasPart (part : Text) : Text → Bool
  | [] => part.isEmpty
  | c :: s => (cut? part (c :: s)).isSome || hasPart part s

/-! ### The first and the last place where a reader applies -/

/-- Passes over characters that satisfy `isPassed` as long as `next` does not apply;
gives what was passed over, and what `next` makes of the text from there. -/
def upTo (isPassed : Char → Bool) (next : Text → Option α) : Text → Option (Text × α)
  | [] => (next []).map fun a => ([], a)
  | c :: s =>
    match next (c :: s) with
    | some a => some ([], a)
    | none =>
      if isPassed c then (upTo isPassed next s).map fun (front, a) => (c :: front, a) else none

/-- Passes over as much as it can and still have `next` apply. -/
def upToLast (next : Text → Option α) : Text → Option (Text × α)
  | [] => (next []).map fun a => ([], a)
  | c :: s =>
    match upToLast next s with
    | some (front, a) => some (c :: front, a)
    | none => (next (c :: s)).map fun a => ([], a)

/-- The characters other than a newline: what a field that ends on its line may hold. -/
def onLine (c : Char) : Bool := c != '\n'

/-- Any character: what a field that may cross lines may hold. -/
def anywhere (_ : Char) : Bool := true

theorem upTo_some {isPassed : Char → Bool} {next : Text → Option α} {s front : Text} {a : α}
    (h : upTo isPassed next s = some (front, a)) :
    ∃ rest, s = front ++ rest ∧ next rest = some a ∧ ∀ c ∈ front, isPassed c := by
  induction s generalizing front with
  | nil =>
    simp only [upTo, Option.map_eq_some_iff, Prod.mk.injEq] at h
    obtain ⟨b, hb, rfl, rfl⟩ := h
    exact ⟨[], rfl, hb, by simp⟩
  | cons c s ih =>
    unfold upTo at h
    split at h
    · next b hb =>
      simp only [Option.some.injEq, Prod.mk.injEq] at h
      obtain ⟨rfl, rfl⟩ := h
      exact ⟨c :: s, rfl, hb, by simp⟩
    · split at h
      · next hc =>
        simp only [Option.map_eq_some_iff, Prod.mk.injEq] at h
        obtain ⟨⟨f, b⟩, hf, rfl, rfl⟩ := h
        obtain ⟨rest, rfl, hn, ho⟩ := ih hf
        exact ⟨rest, rfl, hn, by simpa [hc] using ho⟩
      · exact absurd h (by simp)

theorem upToLast_some {next : Text → Option α} {s front : Text} {a : α}
    (h : upToLast next s = some (front, a)) : ∃ rest, s = front ++ rest ∧ next rest = some a := by
  induction s generalizing front with
  | nil =>
    simp only [upToLast, Option.map_eq_some_iff, Prod.mk.injEq] at h
    obtain ⟨b, hb, rfl, rfl⟩ := h
    exact ⟨[], rfl, hb⟩
  | cons c s ih =>
    unfold upToLast at h
    split at h
    · next f b hf =>
      simp only [Option.some.injEq, Prod.mk.injEq] at h
      obtain ⟨rfl, rfl⟩ := h
      obtain ⟨rest, rfl, hn⟩ := ih hf
      exact ⟨rest, rfl, hn⟩
    · simp only [Option.map_eq_some_iff, Prod.mk.injEq] at h
      obtain ⟨b, hb, rfl, rfl⟩ := h
      exact ⟨c :: s, rfl, hb⟩

/-! ### Every place where a reader applies -/

/-- All that a reader finds in a text, from left to right; the search goes on behind
each find, which has to shorten the text. -/
def readAll (next : Text → Option (α × Text)) (s : Text) : List α :=
  match next s with
  | some (a, rest) => if rest.length < s.length then a :: readAll next rest else [a]
  | none =>
    match s with
    | [] => []
    | _ :: s => readAll next s
termination_by s.length

/-- The pieces of a text between the occurrences of a literal. -/
def split (mark s : Text) : List Text :=
  match upTo anywhere (cut? mark) s with
  | some (front, rest) => if rest.length < s.length then front :: split mark rest else [s]
  | none => [s]
termination_by s.length

/-! ### Lines -/

/-- The lines of a text, which newlines separate. -/
def lines : Text → List Text
  | [] => [[]]
  | c :: s =>
    if c = '\n' then [] :: lines s
    else
      match lines s with
      | [] => [[c]]
      | line :: more => (c :: line) :: more

/-- Gives every piece but the last its closing newline back. -/
def closeLines : List Text → List Text
  | [] => []
  | [last] => [last]
  | piece :: next :: more => (piece ++ ['\n']) :: closeLines (next :: more)

/-- The pieces of a text between the occurrences of a literal that stand at the
beginning of a line. -/
def splitAtLines (mark s : Text) : List Text :=
  match cut? mark s with
  | some rest => [] :: closeLines (split ('\n' :: mark) rest)
  | none => closeLines (split ('\n' :: mark) s)

/-! ### Trimming and slices -/

/-- A text without the characters of a class at its two ends. -/
def trim (p : Char → Bool) (s : Text) : Text :=
  ((s.dropWhile p).reverse.dropWhile p).reverse

/-- Where a bound falls in a text of `size` characters: a negative bound counts from
the end, and what lies outside is moved to the nearer end. -/
def bound (size : Nat) (i : Int) : Nat :=
  if i < 0 then (size + i).toNat else min i.toNat size

/-- The characters from `start` up to `stop`, either of which may be negative or lie
beyond the text. -/
def slice (start stop : Int) (s : Text) : Text :=
  let first := bound s.length start
  (s.drop first).take (bound s.length stop - first)

/-- The characters before `stop`. -/
def before (stop : Int) (s : Text) : Text := s.take (bound s.length stop)

/-- The characters from `start` on. -/
def behind (start : Int) (s : Text) : Text := s.drop (bound s.length start)

end Text

end InlineReport
