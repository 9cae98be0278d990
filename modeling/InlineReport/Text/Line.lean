import InlineReport.Text.Blank

/-!
# Line boundaries

A file may end its lines with a newline, a carriage return, or one after the other;
`Text.unifyNewlines` makes each of them a single newline, which is the form in which
texts are scanned.

The output of another program may break its lines in more ways. `Text.breakLines`
knows all of them, and takes a carriage return with a newline behind it as one.
Every line break is white space (`isBlank_of_isLineBreak`), so a text without white
space at its end does not end in an empty line.
-/

namespace InlineReport

/-- The ranges of characters that end a line. -/
def lineBreakRanges : CharClass :=
  [(0xA, 0xD), (0x1C, 0x1E), (0x85, 0x85), (0x2028, 0x2029)]

/-- Whether a character ends a line. -/
def isLineBreak (c : Char) : Bool := lineBreakRanges.mem c

theorem isBlank_of_isLineBreak {c : Char} (h : isLineBreak c = true) : isBlank c = true := by
  obtain ⟨r, hr, h1, h2⟩ := CharClass.mem_iff.mp h
  refine CharClass.mem_iff.mpr ?_
  simp only [lineBreakRanges, List.mem_cons, List.not_mem_nil, or_false] at hr
  rcases hr with rfl | rfl | rfl | rfl
  · exact ⟨(0x9, 0xD), by simp [blankRanges], by simp at h1 ⊢; omega, h2⟩
  · exact ⟨(0x1C, 0x20), by simp [blankRanges], h1, by simp at h2 ⊢; omega⟩
  · exact ⟨(0x85, 0x85), by simp [blankRanges], h1, h2⟩
  · exact ⟨(0x2028, 0x2029), by simp [blankRanges], h1, h2⟩

namespace Text

/-- A text with every carriage return, and every carriage return and newline in a row,
replaced by a newline. -/
def unifyNewlines : Text → Text
  | [] => []
  | '\r' :: '\n' :: s => '\n' :: unifyNewlines s
  | c :: s => (if c = '\r' then '\n' else c) :: unifyNewlines s

/-- The lines of a text without their line breaks. A text that ends in a line break
has no further, empty line behind it. -/
def breakLines : Text → List Text
  | [] => []
  | '\r' :: '\n' :: s => [] :: breakLines s
  | c :: s =>
    if isLineBreak c then [] :: breakLines s
    else
      match breakLines s with
      | [] => [[c]]
      | line :: more => (c :: line) :: more

/-- The last line of a text that is not blank, without the white space at the end;
empty if the text is blank. It is looked for only where the text has something else than
white space, and `none` says that there are no lines even so. -/
def lastLine? (s : Text) : Option Text :=
  let shown := strip s
  if shown.isEmpty then some [] else (breakLines shown).getLast?

/-- The last line of a text that is not blank, empty if there is none. -/
def lastLine (s : Text) : Text := (lastLine? s).getD []

end Text

end InlineReport
