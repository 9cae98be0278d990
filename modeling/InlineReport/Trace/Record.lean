/-!
# Records of a trace

A trace consists of three streams. The **source stream** has a block for each compiled
version of a function and for each copy of a function that the compiler inlined into
one; the **IR stream** has a block for each compiled version, with the operations the
compiler could not remove; the **run log** says which calls were not inlined, and why.

The records below are what the three streams say, before anything is looked up. Versions
are numbered by a *compile id*; the copies inside a version by a *second id*, where zero
stands for the version itself.
-/

namespace InlineReport

/-- Where an inline copy stands: copy `copyId` at an offset into the text of the copy
(or version) `parentId`. -/
structure Placement where
  copyId : Nat
  parentId : Nat
  offset : Nat
deriving DecidableEq, Repr

/-- A block of the source stream. -/
structure SourceBlock where
  file : String
  name : String
  compileId : Nat
  secondId : Nat
  code : List Char
  deopts : List String
  placement : Option Placement
deriving DecidableEq, Repr

/-- Whether a block holds an inline copy rather than a compiled version. -/
def SourceBlock.isInline (b : SourceBlock) : Bool := b.secondId != 0

/-- An operation that is left in the code of a version, and its offset; with an inline
id the offset counts in the text of that copy. -/
structure Change where
  kind : String
  offset : Nat
  inlineId : Option Nat
deriving DecidableEq, Repr

/-- A block of the IR stream. -/
structure IrBlock where
  file : String
  name : String
  compileId : Nat
  changes : List Change
deriving DecidableEq, Repr

/-- A call that was not inlined. -/
structure Refusal where
  callee : String
  caller : String
  reason : String
deriving DecidableEq, Repr

end InlineReport
