import InlineReport.Text.Quoted

/-!
# Texts with surrogates

A settings file names a character by its number, and nothing keeps it from naming half of a
pair of UTF-16: a *surrogate*, which is a code point but no character. A `WideText` is a list
of code points, with or without surrogates. It can be compared, shown and handed on like
any other text, but only a text without surrogates can be written to a file
(`WideText.text?`), and `text?_wide` says that nothing else stands in its way.
-/

namespace InlineReport

/-- A code point: a character, or one of the surrogates in their order. -/
inductive CodePoint
  | char (c : Char)
  | surrogate (i : Fin 0x800)
deriving DecidableEq, Repr

namespace CodePoint

/-- The number of the first surrogate. -/
def surrogateStart : Nat := 0xD800

/-- The number of a code point. -/
def number : CodePoint → Nat
  | char c => c.toNat
  | surrogate i => surrogateStart + i

/-- The code point of a number, if there is one. -/
def ofNumber? (n : Nat) : Option CodePoint :=
  if h : n.isValidChar then some (char (Char.ofNatAux n h))
  else if h : surrogateStart ≤ n ∧ n < surrogateStart + 0x800 then
    some (surrogate ⟨n - surrogateStart, by omega⟩)
  else none

/-- The character that a code point is, if it is one. -/
def char? : CodePoint → Option Char
  | char c => some c
  | surrogate _ => none

/-- Whether a code point is a character of a class. -/
def isIn (p : Char → Bool) : CodePoint → Bool
  | char c => p c
  | surrogate _ => false

end CodePoint

/-- A text that may hold surrogates. -/
abbrev WideText := List CodePoint

/-- A text as one that may hold surrogates. -/
def Text.wide (s : Text) : WideText := s.map .char

/-- A string as a text that may hold surrogates. -/
def wide (s : String) : WideText := Text.wide s.toList

namespace WideText

/-- A text without surrogates as a text. -/
def text? (s : WideText) : Option Text := s.mapM CodePoint.char?

/-- Whatever text is widened can be had back. -/
@[simp]
theorem text?_wide (s : Text) : text? s.wide = some s := by
  induction s with
  | nil => rfl
  | cons c s ih =>
    simp only [text?, Text.wide, List.map_cons, List.mapM_cons, CodePoint.char?] at ih ⊢
    simp [ih]

/-- The rest of a text behind a literal that it starts with. -/
def cut? (lead : Text) (s : WideText) : Option WideText :=
  if s.take lead.length = lead.wide then some (s.drop lead.length) else none

/-- The parts of a text between the places where a code point stands. -/
def split (mark : CodePoint) : WideText → List WideText
  | [] => [[]]
  | c :: s =>
    if c = mark then [] :: split mark s
    else
      match split mark s with
      | [] => [[c]]
      | part :: parts => (c :: part) :: parts

/-- The order of texts, code point by code point. -/
def less : WideText → WideText → Bool
  | [], s => !s.isEmpty
  | _ :: _, [] => false
  | a :: s, b :: t => a.number < b.number || (a = b && less s t)

/-- A text with each surrogate written as an escape. -/
def shown (s : WideText) : Text :=
  s.flatMap fun
    | .char c => [c]
    | .surrogate i => '\\' :: 'u' :: Hex.lower 4 (CodePoint.surrogate i).number

/-- The quote that is put around a text. -/
def mark (s : WideText) : Char := Quoted.mark (s.filterMap CodePoint.char?)

/-- A code point as it is shown between the quotes `mark`. -/
def escape (mark : Char) : CodePoint → Text
  | .char c => Quoted.escape mark c
  | .surrogate i => shown [.surrogate i]

/-- A text between quotes, with all that could be mistaken written as an escape. -/
def quoted (s : WideText) : Text := mark s :: s.flatMap (escape (mark s)) ++ [mark s]

@[simp]
theorem mark_wide (s : Text) : mark s.wide = Quoted.mark s := by
  have h : (Text.wide s).filterMap CodePoint.char? = s := by
    induction s with
    | nil => rfl
    | cons c s ih => simpa [Text.wide, CodePoint.char?] using ih
  rw [mark, h]

/-- Where there are no surrogates, the quoted form is that of a text. -/
@[simp]
theorem quoted_wide (s : Text) : quoted s.wide = InlineReport.quoted s := by
  rw [quoted, mark_wide]
  simp [InlineReport.quoted, Text.wide, List.flatMap_map, escape]

end WideText

end InlineReport
