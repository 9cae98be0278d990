/-!
# What a machine can hold

Some magnitudes are bounded by the machine that a run is on, and by how the program has been
started on it: how deeply things may be nested that are shown by recursion, and how much blank
space fits into memory. What the bounds are is not settled here. Whatever is bounded takes
`Limits`, and what is said about it is said for all of them.
-/

namespace InlineReport

/-- How much the machine of a run can hold. -/
structure Limits where
  /-- How deeply marked code may be nested to be shown. -/
  codeDepth : Nat
  /-- How deeply the trees of copies may be nested to be shown. -/
  treeDepth : Nat
  /-- How deeply containers may be nested to be shown. -/
  formDepth : Nat
  /-- The greatest indentation that fits into memory. -/
  indent : Nat
  /-- Code in which nothing is nested can be shown. -/
  codeDepth_pos : 0 < codeDepth := by decide
  /-- A level of a tree does not take more than a level of marked code. -/
  codeDepth_le : codeDepth ≤ treeDepth := by decide
deriving Repr

/-- The limits of a run that is started in the usual way. -/
def Limits.usual : Limits where
  codeDepth := 330
  treeDepth := 492
  formDepth := 990
  indent := 0x100000000

end InlineReport
