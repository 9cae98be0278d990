/-!
# Binary fractions

A time limit is a binary fraction of 53 significant bits: a sign, a mantissa and an
exponent, or one of the two infinities, or no number at all. The mantissa is below
2 ^ 53, and it is at least 2 ^ 52 unless the exponent is the least one, so that equal
numbers other than the two zeros are equal as data.

`Binary.ofRatio` is the fraction that is **nearest to a quotient** of natural numbers, a
tie going to the even mantissa; reading a decimal, converting a whole number, and
arithmetic all come down to it.
-/

namespace InlineReport

/-- A binary fraction of 53 significant bits. -/
inductive Binary
  | finite (negative : Bool) (mantissa : Nat) (exponent : Int)
  | infinite (negative : Bool)
  | nan
deriving DecidableEq, Repr

namespace Binary

/-- The number of significant bits. -/
def precision : Nat := 53

/-- The least exponent. -/
def leastExponent : Int := -1074

/-- The greatest exponent. -/
def greatestExponent : Int := 971

/-! ### Rounding -/

/-- The natural number nearest to a quotient; a tie goes to the even one. -/
def roundEven (num den : Nat) : Nat :=
  let q := num / den
  let r := num % den
  if 2 * r > den ∨ (2 * r = den ∧ q % 2 = 1) then q + 1 else q

/-- A quotient divided by a power of two, as a quotient again. -/
def scale (num den : Nat) (exponent : Int) : Nat × Nat :=
  (num <<< (-exponent).toNat, den <<< exponent.toNat)

/-- The exponent at which the mantissa of a positive quotient has all its bits, or the
least exponent. -/
def exponentFor (num den : Nat) : Int :=
  let guess : Int := Nat.log2 num - Nat.log2 den - precision
  let (n, d) := scale num den guess
  max leastExponent (if n / d < 1 <<< precision then guess else guess + 1)

/-- A mantissa that may have been rounded up by one bit too many. -/
def normalize (negative : Bool) (mantissa : Nat) (exponent : Int) : Binary :=
  if mantissa = 1 <<< precision then
    if greatestExponent ≤ exponent then infinite negative
    else finite negative (1 <<< (precision - 1)) (exponent + 1)
  else if exponent > greatestExponent then infinite negative
  else finite negative mantissa exponent

/-- The zero of a sign. -/
def zero (negative : Bool) : Binary := finite negative 0 leastExponent

/-- The fraction nearest to a quotient, with a sign. -/
def ofRatio (negative : Bool) (num den : Nat) : Binary :=
  if num = 0 then zero negative
  else
    let exponent := exponentFor num den
    let (n, d) := scale num den exponent
    normalize negative (roundEven n d) exponent

/-- The fraction nearest to `digits * 10 ^ exponent`. Where the exponent alone decides,
nothing is computed. -/
def ofDecimal (negative : Bool) (digits : Nat) (exponent : Int) : Binary :=
  if digits = 0 then zero negative
  else
    let size : Int := (Nat.toDigits 10 digits).length + exponent
    if size > 400 then infinite negative
    else if size < -400 then zero negative
    else ofRatio negative (digits * Nat.pow 10 exponent.toNat) (Nat.pow 10 (-exponent).toNat)

/-- The fraction nearest to a whole number, if it is in range. -/
def ofInt? (n : Int) : Option Binary :=
  match ofRatio (n < 0) n.natAbs 1 with
  | infinite _ => none
  | x => some x

/-! ### Comparison and arithmetic -/

/-- Whether a fraction is one of the zeros. -/
def isZero : Binary → Bool
  | finite _ m _ => m == 0
  | _ => false

/-- Whether a fraction is zero or less. -/
def nonPositive : Binary → Bool
  | finite negative m _ => negative || m == 0
  | infinite negative => negative
  | nan => false

/-- A sign as a factor. -/
def signed (negative : Bool) (n : Nat) : Int := if negative then -n else n

/-- How a fraction compares with a whole number. -/
def compareInt (x : Binary) (n : Int) : Option Ordering :=
  match x with
  | finite negative m e => some (compare (signed negative (m <<< e.toNat)) (n <<< (-e).toNat))
  | infinite negative => some (if negative then .lt else .gt)
  | nan => none

/-- Whether a fraction is a given whole number. -/
def equalsInt (x : Binary) (n : Int) : Bool := x.compareInt n == some .eq

/-- Whether two fractions are the same number, the zeros being one. -/
def same (x y : Binary) : Bool := x == y || (x.isZero && y.isZero)

/-- A fraction times a common power of two, so that two fractions become whole. -/
def wholeAt (m : Nat) (e least : Int) (negative : Bool) : Int :=
  signed negative (m <<< (e - least).toNat)

/-- Whether a fraction is less than another one. -/
def less : Binary → Binary → Bool
  | finite s m e, finite t n f =>
    decide (wholeAt m e (min e f) s < wholeAt n f (min e f) t)
  | finite .., infinite t => !t
  | infinite s, finite .. => s
  | infinite s, infinite t => s && !t
  | _, _ => false

/-- The fraction nearest to a whole number times a power of two. -/
def ofScaled (n : Int) (exponent : Int) : Binary :=
  ofRatio (n < 0) (n.natAbs <<< exponent.toNat) (1 <<< (-exponent).toNat)

/-- The sum of two fractions. -/
def add : Binary → Binary → Binary
  | finite s m e, finite t n f =>
    let least := min e f
    let sum := wholeAt m e least s + wholeAt n f least t
    if sum = 0 then zero (s && t) else ofScaled sum least
  | finite .., infinite t => infinite t
  | infinite s, finite .. => infinite s
  | infinite s, infinite t => if s = t then infinite s else nan
  | _, _ => nan

/-- The product of two fractions. -/
def mul : Binary → Binary → Binary
  | finite s m e, finite t n f =>
    ofRatio (s != t) ((m * n) <<< (e + f).toNat) (1 <<< (-(e + f)).toNat)
  | finite s m _, infinite t => if m = 0 then nan else infinite (s != t)
  | infinite s, finite t n _ => if n = 0 then nan else infinite (s != t)
  | infinite s, infinite t => infinite (s != t)
  | _, _ => nan

/-- The fraction with its sign turned. -/
def neg : Binary → Binary
  | finite s m e => finite (!s) m e
  | infinite s => infinite (!s)
  | nan => nan

end Binary

end InlineReport
