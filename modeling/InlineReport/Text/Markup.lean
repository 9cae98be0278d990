import InlineReport.Text.Basic

/-!
# Texts inside markup

Two ways to put a text into a page. `escapeMarkup` is for names, reasons and titles,
which stand in the page as text or in a quoted attribute: the five characters that
markup uses are replaced by their entities. `escapeCode` is for source code: it replaces
the two angle brackets only, and leaves what looks like an entity in the code as it is.
-/

namespace InlineReport

namespace Markup

/-- A character as it is written in markup, as text or inside a quoted attribute. -/
def entity (c : Char) : Text :=
  if c = '&' then "&amp;".toList
  else if c = '<' then "&lt;".toList
  else if c = '>' then "&gt;".toList
  else if c = '"' then "&quot;".toList
  else if c = '\'' then "&#x27;".toList
  else [c]

/-- A character of source code as it is written in markup. -/
def codeEntity (c : Char) : Text :=
  if c = '>' then "&gt;".toList
  else if c = '<' then "&lt;".toList
  else [c]

end Markup

/-- A text as it is written in markup, as text or inside a quoted attribute. -/
def escapeMarkup (s : Text) : Text := s.flatMap Markup.entity

/-- Source code as it is written in markup. -/
def escapeCode (s : Text) : Text := s.flatMap Markup.codeEntity

@[simp]
theorem escapeMarkup_nil : escapeMarkup [] = [] := rfl

@[simp]
theorem escapeCode_nil : escapeCode [] = [] := rfl

@[simp]
theorem escapeMarkup_append (s t : Text) :
    escapeMarkup (s ++ t) = escapeMarkup s ++ escapeMarkup t := by
  simp [escapeMarkup]

@[simp]
theorem escapeCode_append (s t : Text) : escapeCode (s ++ t) = escapeCode s ++ escapeCode t := by
  simp [escapeCode]

end InlineReport
