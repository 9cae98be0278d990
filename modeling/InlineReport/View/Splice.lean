import InlineReport.Text.Basic

/-!
# Splicing replacements into a text

A **replacement** puts a text in the place of a span of the code. Several replacements
are made in the order of their starts, and among equal starts in the order in which they
are given; one that starts before the end of the last one made is left out.

`splice` makes them one by one in the growing text, and keeps account of how far what
lies behind has been shifted. `weave` says the same in a single pass over the code as it
was: the pieces of code between the spans of the replacements that are `kept`, with the
new texts in between.
-/

namespace InlineReport

/-- A text for the span of a code from `start` up to `stop`. -/
structure Replacement where
  start : Int
  stop : Int
  text : Text
deriving DecidableEq, Repr

namespace Replacement

/-- The order in which replacements are made. -/
def sort (rs : List Replacement) : List Replacement := rs.mergeSort (·.start ≤ ·.start)

/-! ### One by one -/

/-- A text in which some replacements have been made: how far the rest of it has been
shifted, and where the last one ends. -/
structure Spliced where
  text : Text
  shift : Int := 0
  lastEnd : Int := -1

/-- Makes the next replacement, unless it starts before the end of the last one. -/
def Spliced.next (done : Spliced) (r : Replacement) : Spliced :=
  let start := r.start + done.shift
  let stop := r.stop + done.shift
  if start < done.lastEnd then done
  else
    let growth := (r.text.length : Int) - (stop - start)
    { text := Text.before start done.text ++ r.text ++ Text.behind stop done.text
      shift := done.shift + growth
      lastEnd := stop + growth }

/-! ### In a single pass -/

/-- The replacements that are made, of an ordered list, if the last one made ends at
`lastEnd`. -/
def kept (lastEnd : Int) : List Replacement → List Replacement
  | [] => []
  | r :: rs => if r.start < lastEnd then kept lastEnd rs else r :: kept r.stop rs

/-- The code from `start` on, with new texts in the place of ordered spans. -/
def weaveFrom (code : Text) (start : Int) : List Replacement → Text
  | [] => Text.behind start code
  | r :: rs => Text.slice start r.start code ++ r.text ++ weaveFrom code r.stop rs

end Replacement

/-- A code with replacements made, one by one. -/
def splice (code : Text) (rs : List Replacement) : Text :=
  ((Replacement.sort rs).foldl Replacement.Spliced.next { text := code }).text

/-- A code with replacements made, in a single pass. -/
def weave (code : Text) (rs : List Replacement) : Text :=
  Replacement.weaveFrom code 0 (Replacement.kept 0 (Replacement.sort rs))

end InlineReport
