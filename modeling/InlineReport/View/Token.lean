import InlineReport.Text.Word
import InlineReport.Text.Basic

/-!
# The token at an offset

A trace gives the place of an operation by the offset at which it begins, and leaves
open where it ends. The part of the code that is marked is a *token*: `new ` or a run of
operator characters, either of which may be missing, then a word, then a closing bracket
if there is one. Only a window of the code is looked at, and where no token begins a
span of fixed length is marked instead.
-/

namespace InlineReport

namespace Token

open Text

/-- How many characters of the code are looked at. -/
def window : Nat := 100

/-- How many characters are marked where no token begins. -/
def fallback : Nat := 5

/-- The characters that may stand before the word of a token. -/
def isOperator (c : Char) : Bool := ".=[ !&<>^%+-|".toList.contains c

/-- The length of a word at the beginning of a text, with a closing bracket behind it. -/
def wordLength? (s : Text) : Option Nat :=
  let word := s.takeWhile isAsciiWord
  if word.isEmpty then none
  else some (word.length + if (s.drop word.length).head? = some ']' then 1 else 0)

/-- The length of a token that begins with operator characters, or with its word. -/
def operatorLength? (s : Text) : Option Nat :=
  let operators := s.takeWhile isOperator
  (wordLength? (s.drop operators.length)).map (operators.length + ·)

/-- The length of a token that begins with `new `. -/
def newLength? (s : Text) : Option Nat :=
  (cut? "new ".toList s).bind fun rest => (wordLength? rest).map (4 + ·)

/-- The length of the token at the beginning of a text. -/
def length? (s : Text) : Option Nat := (newLength? s).or (operatorLength? s)

end Token

/-- The end of the part of the code that is marked for an offset. -/
def findEnd (code : Text) (start : Int) : Int :=
  match Token.length? (Text.slice start (start + Token.window) code) with
  | some n => start + n
  | none => start + Token.fallback

end InlineReport
