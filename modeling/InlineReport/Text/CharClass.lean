/-!
# Classes of characters

A class of characters is given by the ranges of code points that make it up, as the
character database lists them, ascending and apart.
-/

namespace InlineReport

/-- A class of characters, by ascending ranges of code points, both ends included. -/
abbrev CharClass := List (Nat × Nat)

namespace CharClass

/-- Whether a character belongs to a class. -/
def mem (ranges : CharClass) (c : Char) : Bool :=
  ranges.any fun (first, last) => first ≤ c.toNat && c.toNat ≤ last

theorem mem_iff {ranges : CharClass} {c : Char} :
    ranges.mem c = true ↔ ∃ r ∈ ranges, r.1 ≤ c.toNat ∧ c.toNat ≤ r.2 := by
  simp [mem]

end CharClass

end InlineReport
