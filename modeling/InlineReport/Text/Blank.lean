import InlineReport.Text.CharClass
import InlineReport.Text.Basic

/-!
# Blank characters

The characters that count as white space: the control characters that move the
position, the information separators, and every space and line separator of the
character database.
-/

namespace InlineReport

/-- The ranges of blank characters. -/
def blankRanges : CharClass :=
  [(0x9, 0xD), (0x1C, 0x20), (0x85, 0x85), (0xA0, 0xA0), (0x1680, 0x1680), (0x2000, 0x200A),
   (0x2028, 0x2029), (0x202F, 0x202F), (0x205F, 0x205F), (0x3000, 0x3000)]

/-- Whether a character is white space. -/
def isBlank (c : Char) : Bool := blankRanges.mem c

namespace Text

/-- Whether a text holds nothing but white space. -/
def isBlank (s : Text) : Bool := s.all InlineReport.isBlank

/-- A text without the white space at its two ends. -/
def strip (s : Text) : Text := trim InlineReport.isBlank s

/-- A text without the white space it begins with. -/
def stripLeft (s : Text) : Text := s.dropWhile InlineReport.isBlank

end Text

end InlineReport
