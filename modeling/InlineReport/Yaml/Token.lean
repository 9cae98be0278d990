import InlineReport.Text.Wide

/-!
# Tokens of a settings text

The tokens make the layout explicit: where a block of items or of keys begins and ends by
indentation there is a token for it, and a key is announced before it even if only the
colon behind it gives it away.
-/

namespace InlineReport

namespace Yaml

/-- A line that begins with a percent sign. -/
inductive Directive
  | version (major : Nat)
  | tag (handle uriStart : Text)
  | other
deriving DecidableEq, Repr

/-- A tag as it is written: the handle, unless the whole name is given, and the rest. -/
structure TagName where
  handle : Option Text
  rest : Text
deriving DecidableEq, Repr

/-- A token. -/
inductive Token
  | directive (d : Directive)
  | documentStart
  | documentEnd
  | blockSequenceStart
  | blockMappingStart
  | blockEnd
  | flowSequenceStart
  | flowSequenceEnd
  | flowMappingStart
  | flowMappingEnd
  | blockEntry
  | flowEntry
  | key
  | value
  | alias (name : Text)
  | anchor (name : Text)
  | tag (name : TagName)
  | scalar (isPlain : Bool) (text : WideText)
deriving DecidableEq, Repr

end Yaml

end InlineReport
