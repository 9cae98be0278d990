import InlineReport.Number.Binary
import InlineReport.Text.Basic

/-!
# Shortest decimals

A binary fraction is written with the **fewest digits that read back** as the same
fraction; of the decimals with that many digits, the one nearest to it. The decimals that
read back are those of an interval: it reaches half-way to the two neighbours of the
fraction, and its ends belong to it when the mantissa is even.

Every finite fraction is a decimal itself, with finitely many digits. So the candidates
for a number of digits are that decimal cut off, and cut off and increased by one; the
first number of digits with a candidate in the interval is taken.
-/

namespace InlineReport

namespace Shortest

/-- The decimal `digits * 10 ^ exponent`. -/
structure Decimal where
  digits : Nat
  exponent : Int
deriving DecidableEq, Repr

/-- How many digits a number has. -/
def count (n : Nat) : Nat := (Nat.toDigits 10 n).length

/-- The decimal that a fraction is. -/
def exact (m : Nat) (e : Int) : Decimal :=
  ⟨(m <<< e.toNat) * Nat.pow 5 (-e).toNat, min e 0⟩

/-- How a decimal compares with `n * 2 ^ e`. -/
def compare (d : Decimal) (n : Nat) (e : Int) : Ordering :=
  Ord.compare ((d.digits * Nat.pow 10 d.exponent.toNat) <<< (-e).toNat)
    ((n * Nat.pow 10 (-d.exponent).toNat) <<< e.toNat)

/-- Whether a decimal reads back as the fraction with mantissa `m` and exponent `e`: it
lies between the half-way points to the neighbours. Below a power of two the lower
neighbour is half as far away. -/
def readsBack (m : Nat) (e : Int) (d : Decimal) : Bool :=
  let narrow := m = 1 <<< (Binary.precision - 1) ∧ e ≠ Binary.leastExponent
  let low := compare d (4 * m - if narrow then 1 else 2) (e - 2)
  let high := compare d (4 * m + 2) (e - 2)
  if m % 2 = 0 then low != .lt && high != .gt else low == .gt && high == .lt

/-- The two candidates with a given number of digits, the nearer one first; a tie goes to
the even one. -/
def candidates (x : Decimal) (size : Nat) : List Decimal :=
  let dropped := count x.digits - size
  let unit := Nat.pow 10 dropped
  let cut : Decimal := ⟨x.digits / unit, x.exponent + dropped⟩
  let up : Decimal := ⟨x.digits / unit + 1, x.exponent + dropped⟩
  let r := x.digits % unit
  if r = 0 then [cut]
  else if 2 * r < unit ∨ (2 * r = unit ∧ cut.digits % 2 = 0) then [cut, up]
  else [up, cut]

/-- The most digits that are ever needed. -/
def mostDigits : Nat := 17

/-- The shortest decimal that reads back as a fraction, and of the shortest ones the
nearest. -/
def ofFraction (m : Nat) (e : Int) : Decimal :=
  let x := exact m e
  let tried := (List.range mostDigits).flatMap fun n => candidates x (n + 1)
  (tried.find? (readsBack m e)).getD x

/-- A decimal without the zeros at its end, in at most `fuel` steps. -/
def strip : (fuel : Nat) → Decimal → Decimal
  | 0, d => d
  | fuel + 1, d =>
    if d.digits % 10 = 0 ∧ d.digits ≠ 0 then strip fuel ⟨d.digits / 10, d.exponent + 1⟩ else d

end Shortest

/-! ### The text of a fraction -/

namespace Binary

open Shortest

/-- The least power of ten that is written without an exponent. -/
def leastPlain : Int := -4

/-- The least power of ten that is written with an exponent again. -/
def leastScientific : Int := 16

/-- An exponent: a sign and at least two digits. -/
def exponentText (n : Int) : Text :=
  (if n < 0 then '-' else '+') :: (Nat.toDigits 10 n.natAbs).leftpad 2 '0'

/-- Digits with a point behind the first `size` of them, zeros being added where digits
are missing; at least one digit stands on either side. -/
def pointText (digits : Text) (size : Int) : Text :=
  if size ≤ 0 then '0' :: '.' :: (List.replicate (-size).toNat '0' ++ digits)
  else
    let whole := digits.take size.toNat
    let part := digits.drop size.toNat
    whole ++ List.replicate (size.toNat - digits.length) '0' ++
      '.' :: (if part.isEmpty then ['0'] else part)

/-- The text of a positive decimal. -/
def decimalText (d : Decimal) : Text :=
  let digits := Nat.toDigits 10 d.digits
  let power : Int := d.exponent + digits.length - 1
  if leastPlain ≤ power ∧ power < leastScientific then pointText digits (power + 1)
  else
    let part := digits.drop 1
    digits.take 1 ++ (if part.isEmpty then [] else '.' :: part) ++ 'e' :: exponentText power

/-- The text of a fraction: its shortest decimal, with an exponent if it is very large or
very small. -/
def text : Binary → Text
  | finite negative m e =>
    let digits :=
      if m = 0 then "0.0".toList
      else
        let d := ofFraction m e
        decimalText (strip (count d.digits) d)
    if negative then '-' :: digits else digits
  | infinite negative => if negative then "-inf".toList else "inf".toList
  | nan => "nan".toList

example : text (ofDecimal false 1 (-1)) = "0.1".toList := by decide +kernel
example : text (ofDecimal true 5 (-324)) = "-5e-324".toList := by decide +kernel
example : text (ofDecimal false 123456789012345680 0) = "1.2345678901234568e+17".toList := by
  decide +kernel

end Binary

end InlineReport
