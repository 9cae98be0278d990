import InlineReport.View.Code

/-!
# The page

The report is one page of markup: a head with its style and a script that folds parts
of the page, and a body that lists files, their functions, and the versions of each
function with their marked code. All versions but the last one are folded. A function is
an anchor that the links of calls lead to.
-/

namespace InlineReport

namespace View

/-! ### Style and script -/

/-- A rule of the style sheet. -/
structure StyleRule where
  selector : String
  declarations : List (String × String)

/-- The text of a rule. -/
def StyleRule.render (r : StyleRule) : String :=
  r.selector ++ "\x7b" ++
    String.join (r.declarations.map fun (name, value) => s!"{name}:{value};") ++
    "\x7d"

/-- The style sheet of the page. -/
def styleRules : List StyleRule := [
  ⟨"body", [("font-family", "'IBM Plex Sans','Segoe UI',sans-serif"), ("background", "#f6f3ee"),
    ("color", "#1f2a2e"), ("margin", "0"), ("padding", "24px")]⟩,
  ⟨"h1", [("margin", "0 0 12px")]⟩,
  ⟨".file-item", [("background", "#ffffff"), ("border-radius", "14px"), ("padding", "12px 18px"),
    ("box-shadow", "0 8px 24px rgba(31,42,46,0.08)"), ("margin-bottom", "18px")]⟩,
  ⟨".file-name", [("font-weight", "600"), ("cursor", "pointer")]⟩,
  ⟨".fn-item", [("margin", "10px 0 0 12px")]⟩,
  ⟨".fn-name", [("font-weight", "600"), ("color", "#2b5f8a")]⟩,
  ⟨".fn-deopt>.fn-name", [("color", "#8c1d18")]⟩,
  ⟨".code", [("white-space", "pre"), ("font-family", "'IBM Plex Mono',monospace"),
    ("font-size", "13px"), ("margin", "4px 0")]⟩,
  ⟨".toggle-next,.recompile-title", [("cursor", "pointer")]⟩,
  ⟨".recompile-title", [("color", "#5b666a"), ("font-size", "12px")]⟩,
  ⟨".inline", [("border-bottom", "1px dashed #2b5f8a")]⟩,
  ⟨".inline-code", [("display", "block"), ("border-left", "3px solid #2b5f8a"),
    ("padding-left", "8px")]⟩,
  ⟨".runtime", [("background", "#fde8c8")]⟩,
  ⟨".runtime.CallWithDescriptor", [("background", "#e3edf7")]⟩,
  ⟨"[did-not-inlined]", [("background", "#f9d7d5")]⟩,
  ⟨".deopt", [("color", "#8c1d18"), ("font-size", "13px")]⟩,
  ⟨".hidden", [("display", "none")]⟩]

/-- The line of the page that holds its style sheet. -/
def style : String := "<style>" ++ String.join (styleRules.map (·.render)) ++ "</style>"

/-- The line of the page that holds its script: a click on a heading folds or unfolds
what stands behind it. -/
def script : String :=
  "<script>" ++
  "document.addEventListener('click',function(e)\x7b" ++
  "var t=e.target.closest('.toggle-next');" ++
  "if(t&&t.nextElementSibling)\x7bt.nextElementSibling.classList.toggle('hidden');\x7d" ++
  "\x7d);" ++
  "</script>"

/-! ### The parts of the page -/

/-- The title of a page that is given none. -/
def defaultTitle : String := "JIT inlining report"

/-- The lines of a version with its marked code; `recompiled` says whether the function
has further versions, and `current` whether this one is the last. -/
def versionLines (recompiled current : Bool) (v : Version) (code : Text) : List Text :=
  ["<div class=\"recompile\">".toList] ++
  (if recompiled then
    ["<span class=\"recompile-title toggle-next\">~recompile~</span>".toList] else []) ++
  [concat ["<div class=\"".toList, if current then [] else "hidden".toList, "\">".toList, code,
    "</div>".toList]] ++
  v.deopts.map (fun reason => concat [
    "<div class=\"deopt\">Deopt: ".toList, escapeMarkup reason.toList, "</div>".toList]) ++
  ["</div>".toList]

/-- The lines of the versions of a function, given the ones still to come. -/
def versionsLines (lim : Limits) (m : Model) (recompiled : Bool) :
    List Nat → Except Failure (List Text)
  | [] => .ok []
  | handle :: more => do
    let v ← m.version handle
    let lines := versionLines recompiled more.isEmpty v (← code lim m handle)
    return lines ++ (← versionsLines lim m recompiled more)

/-- The lines of a function. -/
def functionLines (lim : Limits) (m : Model) (f : Function) : Except Failure (List Text) := do
  let name := escapeMarkup f.name.toList
  let versions ← versionsLines lim m (1 < f.versions.length) f.versions
  return [
    concat ["<div class=\"fn-item".toList, if f.deopted then " fn-deopt".toList else [],
      "\">".toList],
    concat ["<a class=\"fn-name\" href=\"#".toList, name, "\" id=\"".toList, name, "\">".toList,
      name, ":</a>".toList],
    "<div class=\"fn-versions\">".toList] ++ versions ++ ["</div></div>".toList]

/-- The lines of a file. -/
def fileLines (lim : Limits) (m : Model) (file : SourceFile) : Except Failure (List Text) := do
  let functions ← file.functions.values.mapM (functionLines lim m)
  return [
    "<div class=\"file-item\">".toList,
    concat ["<div class=\"file-name toggle-next\">".toList, escapeMarkup file.path.toList,
      "</div>".toList],
    "<div class=\"fn-names\">".toList] ++ functions.flatten ++ ["</div></div>".toList]

/-- The lines of the page up to the heading. -/
def openingLines (title : String) : List Text :=
  let title := escapeMarkup title.toList
  [ "<!doctype html>".toList,
    "<html lang=\"en\">".toList,
    "<head>".toList,
    "<meta charset=\"utf-8\">".toList,
    concat ["<title>".toList, title, "</title>".toList],
    style.toList,
    script.toList,
    "</head>".toList,
    "<body>".toList,
    concat ["<h1>".toList, title, "</h1>".toList]]

/-- The line of a page without files. -/
def emptyNote : Text := "<p class=\"note\">No optimized functions found in trace.</p>".toList

/-- The lines of the page. -/
def pageLines (lim : Limits) (m : Model) (title : String) : Except Failure (List Text) := do
  let files ← m.files.values.mapM (fileLines lim m)
  return openingLines title ++ (if m.files.size = 0 then [emptyNote] else []) ++ files.flatten ++
    ["</body></html>".toList]

/-- The page of a model. -/
def page (lim : Limits) (m : Model) (title : String) : Except Failure Text := do
  return ['\n'].intercalate (← pageLines lim m title)

end View

end InlineReport
