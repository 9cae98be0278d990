import InlineReport.Failure

/-!
# Paths

A path is a list of names behind a root, which is empty for a relative path. Empty names
and names of a single dot are left out, while `..` is kept: it only goes away in
`Path.resolve`, which gives the absolute path that a path has from a folder.
-/

namespace InlineReport

/-- A path. -/
structure Path where
  /-- Empty, or one or two slashes. -/
  root : Text
  parts : List WideText
deriving DecidableEq, Repr

namespace Path

/-- The name of the folder that a folder lies in. -/
def up : WideText := wide ".."

/-- Whether a name between slashes counts. -/
def isName (s : WideText) : Bool := !(s.isEmpty || s = wide ".")

/-- The path that a text writes. Two slashes at the beginning are a root of their own, any
other number is one slash. -/
def ofText (s : WideText) : Path :=
  let slashes := (s.takeWhile (· = .char '/')).length
  { root := if slashes = 2 then ['/', '/'] else if slashes = 0 then [] else ['/']
    parts := (WideText.split (.char '/') s).filter isName }

/-- The path that a string writes. -/
def ofString (s : String) : Path := ofText (wide s)

/-- The text of a path. -/
def text (p : Path) : WideText :=
  if p.root.isEmpty && p.parts.isEmpty then wide "."
  else p.root.wide ++ [CodePoint.char '/'].intercalate p.parts

/-- Whether a path does not depend on a folder. -/
def isAbsolute (p : Path) : Bool := !p.root.isEmpty

/-- A path as it is seen from a folder. -/
def join (folder p : Path) : Path :=
  if p.isAbsolute then p else { folder with parts := folder.parts ++ p.parts }

/-- The path of the folder that a path lies in. -/
def parent (p : Path) : Path := { p with parts := p.parts.dropLast }

/-- Whether a code point can stand in a path. The surrogates from U+DC80 to U+DCFF stand for
bytes that are no characters. -/
def isEncodable : CodePoint → Bool
  | .char _ => true
  | .surrogate i => 0x480 ≤ i.val && i.val ≤ 0x4FF

/-- Why no such path can exist, if that is so. -/
def flaw? (p : Path) : Option Overrun :=
  if p.parts.any fun name => !name.all isEncodable then some .surrogate
  else if p.parts.any (·.contains (.char '\x00')) then some .path
  else none

/-- Goes to a folder by a list of names. -/
def walk (folder : List WideText) : List WideText → List WideText
  | [] => folder
  | name :: names => walk (if name = up then folder.dropLast else folder ++ [name]) names

/-- The absolute path without `..` that a path has from a folder. -/
def resolve (folder p : Path) : Path :=
  { root := ['/'], parts := walk [] (folder.join p).parts }

example : (resolve (ofString "/a/b") (ofString "../c/./d/")).text = wide "/a/c/d" := by
  decide +kernel

end Path

end InlineReport
