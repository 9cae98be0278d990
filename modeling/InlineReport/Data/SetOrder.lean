import InlineReport.Data.Value

/-!
# An order of a set

A set has no order of its own, but it is shown in some order, and a loader may choose any. This is
one that can be chosen. Numbers are laid out in a table of `2 ^ k` slots, more than twice as many
as there are numbers: each number has a residue modulo the prime `2 ^ 61 - 1`, which is the same
for equal numbers of different kinds, and it takes the first free slot on the path that starts at
its residue. They are shown slot by slot; so a few small numbers are shown in their order. All
other sets are shown as they were written.
-/

namespace InlineReport

namespace SetOrder

/-! ### Residues -/

/-- What the residues of numbers are taken modulo. -/
def modulus : Nat := 1 <<< 61 - 1

/-- The residue of a number with the given sign and size; the residue -1 is not used. -/
def signed (negative : Bool) (size : Nat) : Int :=
  let r := Binary.signed negative (size % modulus)
  if r = -1 then -2 else r

/-- The residue of an infinite fraction. -/
def infiniteResidue : Nat := 314159

/-- The residue of a number. As `2 ^ 61` leaves the remainder one, an exponent counts only modulo
61. -/
def residue? : Value → Option Int
  | .bool b => some b.toNat
  | .int n => some (signed (n < 0) n.natAbs)
  | .fraction (.finite negative m e) _ =>
    some (signed negative ((m % modulus) <<< (e % 61).toNat))
  | .fraction (.infinite negative) _ => some (signed negative infiniteResidue)
  | _ => none

/-! ### Slots -/

/-- The number of slots for a number of items. -/
def slotCount (n : Nat) : Nat :=
  if n < 5 then 8 else 1 <<< (Nat.log2 (2 * n) + 1)

/-- How many slots in a row are tried before the path jumps. -/
def stride : Nat := 10

/-- The first free slot on a path, which jumps from a slot to another one by a rule that the
residue disturbs for a while. -/
def freeSlot? (taken : List Nat) (slots : Nat) : (fuel : Nat) → (slot residue : Nat) → Option Nat
  | 0, _, _ => none
  | fuel + 1, slot, residue =>
    let row := if slot + stride ≤ slots then stride else 1
    match (List.range row).find? fun k => !taken.contains (slot + k) with
    | some k => some (slot + k)
    | none =>
      let residue := residue >>> 5
      freeSlot? taken slots fuel ((5 * slot + 1 + residue) % slots) residue

/-- The slots that residues take one after the other. -/
def layOut? (slots : Nat) (taken : List Nat) : List Int → Option (List Nat)
  | [] => some []
  | r :: rs => do
    let residue := (r % (1 <<< 64)).toNat
    let slot ← freeSlot? taken slots (slots + 64) (residue % slots) residue
    return slot :: (← layOut? slots (slot :: taken) rs)

/-- The items of a set in this order. -/
def arrange (items : List Value) : List Value :=
  match (items.mapM residue?).bind (layOut? (slotCount items.length) []) with
  | none => items
  | some slots => ((slots.zip items).mergeSort fun a b => a.1 ≤ b.1).map (·.2)

end SetOrder

end InlineReport
