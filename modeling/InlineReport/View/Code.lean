import InlineReport.Limits
import InlineReport.Model.Basic
import InlineReport.Model.Forest
import InlineReport.Text.Markup
import InlineReport.View.Splice
import InlineReport.View.Token

/-!
# The marked code of a version

The code of a version is shown with its angle brackets escaped, with a marker on each
place where a copy was inlined, followed by the copy's own marked code, and with a
marker on each operation that was left in the code. A call that goes through a call
descriptor becomes a link, if the marked text is the name of a function, and says why
the function was not inlined, if that is known.

All of this is a list of replacements in the code: the escapes first, then the inlined
copies, then the operations, each in the order of the trace; where two of them meet, the
rule of `splice` decides.
-/

namespace InlineReport

/-- The kind under which calls through a call descriptor are shown. -/
def callKind : String := "CallWithDescriptor"

/-- The kind under which an operation is shown: two kinds of calls go by the name of the
call descriptor. -/
def displayKind (kind : String) : String :=
  if kind = "InvokeFunction" ∨ kind = "CallRuntime" then callKind else kind

namespace View

/-! ### Indentation -/

/-- The greatest length that a text can have. -/
def lengthBound : Int := 0x7fffffffffffffff

/-- How far an offset lies behind the last newline before it. -/
def column (code : Text) (offset : Int) : Int :=
  let head := Text.before offset code
  offset - head.length + (head.reverse.takeWhile (· != '\n')).length

/-- The blanks that reach as far as an offset lies behind the newline before it. -/
def indent (lim : Limits) (code : Text) (offset : Int) : Except Failure Text :=
  if column code offset > lengthBound then .error Overrun.indent
  else if column code offset > lim.indent then .error Overrun.memory
  else .ok (List.replicate (column code offset).toNat ' ')

/-! ### Replacements -/

/-- The text of a literal with other texts in between. -/
def concat (parts : List Text) : Text := parts.flatten

/-- The escapes of the angle brackets of a code, from the offset `start` on. -/
def escapes (start : Int) : Text → List Replacement
  | [] => []
  | c :: code =>
    if c = '<' ∨ c = '>' then
      ⟨start, start + 1, Markup.codeEntity c⟩ :: escapes (start + 1) code
    else escapes (start + 1) code

/-- The marker of an inlined copy, given the marked code of the copy. -/
def inlineMark (lim : Limits) (code : Text) (offset : Int) (body : Text) :
    Except Failure Replacement := do
  let stop := findEnd code offset
  let blanks ← indent lim code stop
  return {
    start := offset
    stop
    text := concat [
      "<span class=\"inline toggle-next\" data-title=\"Show inlined\">".toList,
      escapeCode (Text.slice offset stop code),
      "</span><span class=\"inline-code hidden\">".toList, body, blanks, "</span>".toList] }

/-- The part of a link that says why its function was not inlined. -/
def refusalTitle (refusal : String) : Text :=
  if refusal.isEmpty then []
  else concat [
    " did-not-inlined data-title=\"Did not inline: ".toList,
    escapeMarkup refusal.toList, "\"".toList]

/-- The link of a call to a function. -/
def callLink (site : Text) (f : Function) : Text :=
  concat [
    "<a class=\"runtime ".toList, callKind.toList, "\"".toList, refusalTitle f.refusal,
    " href=\"#".toList, escapeMarkup site, "\">".toList, escapeMarkup site, "</a>".toList]

/-- The marker of an operation that has no link. -/
def operationSpan (site : Text) (kind : String) : Text :=
  concat [
    "<span class=\"runtime ".toList, escapeMarkup kind.toList, "\" data-title=\"".toList,
    escapeMarkup kind.toList, "\">".toList, escapeCode site, "</span>".toList]

/-- The marker of an operation. -/
def runtimeMark (m : Model) (code : Text) (call : RuntimeCall) : Replacement :=
  let stop := findEnd code call.offset
  let site := Text.slice call.offset stop code
  let kind := displayKind call.kind
  let link := if kind = callKind then m.functionByName? (String.ofList site) else none
  { start := call.offset
    stop
    text :=
      match link with
      | some f => callLink site f
      | none => operationSpan site kind }

/-! ### Code -/

/-- The box around a marked code. -/
def codeBox (body : Text) : Text := concat ["<div class=\"code\">".toList, body, "</div>".toList]

/-- The replacements in the code of a version, given how the code of a copy is marked. -/
def replacementsWith (lim : Limits) (m : Model) (mark : Int → Except Failure Text) (v : Version) :
    Except Failure (List Replacement) := do
  let inlined ← v.inlines.mapM fun child => do
    let copy ← m.version child
    inlineMark lim v.code copy.offset (← mark child)
  return escapes 0 v.code ++ inlined ++ v.runtime.map (runtimeMark m v.code)

/-- The marked code of a version, with copies nested at most `depth` deep. -/
def codeWithin (lim : Limits) (m : Model) :
    (depth : Nat) → (handle : Int) → Except Failure Text
  | 0, _ => .error Overrun.nesting
  | depth + 1, handle => do
    let v ← m.version handle
    let rs ← replacementsWith lim m (codeWithin lim m depth) v
    return codeBox (splice v.code rs)

/-- How deeply the marked code of a model may be nested. -/
def codeDepth (lim : Limits) (m : Model) : Nat := min m.depthBound lim.codeDepth

/-- The marked code of a version. -/
def code (lim : Limits) (m : Model) (handle : Int) : Except Failure Text :=
  codeWithin lim m (codeDepth lim m) handle

/-- The replacements in the code of a version, in the order in which they are given. -/
def replacements (lim : Limits) (m : Model) (handle : Int) : Except Failure (List Replacement) := do
  replacementsWith lim m (codeWithin lim m (codeDepth lim m)) (← m.version handle)

end View

end InlineReport
