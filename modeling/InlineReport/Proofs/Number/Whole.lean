import InlineReport.Number.Binary
import Mathlib.Algebra.Order.Ring.Nat
import Mathlib.Tactic.Positivity
import Mathlib.Tactic.Ring

/-!
# Whole numbers as fractions

Which whole numbers are in the range of fractions, and of what sign they are there.

The mantissa of a whole number is the quotient of the number by a power of two, so a number
is out of range in two ways: the power is too great, or it is the greatest one and **the
mantissa is rounded up** by one bit too many. The second happens from half a unit below the
next power of two on, since there the quotient is odd and a tie goes up. So the least number
out of range is 2 ^ 1024 - 2 ^ 970 (`leastBeyond`), and this is the only bound:
`ofInt?_eq_none_iff`.
-/

namespace InlineReport

namespace Binary

/-! ### Rounding -/

theorem le_roundEven (num den : Nat) : num / den ≤ roundEven num den := by
  simp only [roundEven]
  split <;> omega

theorem roundEven_le (num den : Nat) : roundEven num den ≤ num / den + 1 := by
  simp only [roundEven]
  split <;> omega

/-- Over an odd quotient, one half is enough to be rounded up. -/
theorem roundEven_eq_succ_iff {num den : Nat} (hodd : num / den % 2 = 1) :
    roundEven num den = num / den + 1 ↔ den ≤ 2 * (num % den) := by
  simp only [roundEven, hodd, and_true]
  split <;> omega

/-! ### The mantissa of a whole number -/

theorem scale_one (n : Nat) (e : Int) : scale n 1 e = (n * 2 ^ (-e).toNat, 2 ^ e.toNat) := by
  simp [scale, Nat.shiftLeft_eq]

/-- At an exponent, a quotient has as many bits as its number has beyond that exponent. -/
theorem le_quotient {n k : Nat} {e : Int} (hn : n ≠ 0) (hk : (k : Int) = n.log2 - e) :
    2 ^ k ≤ n * 2 ^ (-e).toNat / 2 ^ e.toNat := by
  rw [Nat.le_div_iff_mul_le (by positivity), ← pow_add]
  calc 2 ^ (k + e.toNat)
    _ = 2 ^ n.log2 * 2 ^ (-e).toNat := by rw [← pow_add]; congr 1; omega
    _ ≤ n * 2 ^ (-e).toNat := Nat.mul_le_mul_right _ (Nat.log2_self_le hn)

/-- The exponent that is tried first is too small by one. -/
theorem exponentFor_one {n : Nat} (hn : n ≠ 0) : exponentFor n 1 = n.log2 - 52 := by
  have hone : Nat.log2 1 = 0 := rfl
  have hfirst : 2 ^ precision ≤ _ := le_quotient (e := n.log2 - precision) hn (by omega)
  simp only [exponentFor, hone, scale_one, Nat.one_shiftLeft, Int.natCast_zero, Int.sub_zero]
  rw [if_neg (not_lt.mpr hfirst)]
  simp only [leastExponent, precision]
  omega

/-- The mantissa of a whole number. -/
def mantissaOf (n : Nat) : Nat := roundEven (n * 2 ^ (52 - n.log2)) (2 ^ (n.log2 - 52))

theorem ofRatio_one {n : Nat} (hn : n ≠ 0) (negative : Bool) :
    ofRatio negative n 1 = normalize negative (mantissaOf n) (n.log2 - 52) := by
  have hneg : (-((n.log2 : Int) - 52)).toNat = 52 - n.log2 := by omega
  have hpos : ((n.log2 : Int) - 52).toNat = n.log2 - 52 := by omega
  simp only [ofRatio, if_neg hn, exponentFor_one hn, scale_one, hneg, hpos, mantissaOf]

theorem le_mantissaOf {n : Nat} (hn : n ≠ 0) : 2 ^ 52 ≤ mantissaOf n := by
  have hle : 2 ^ 52 ≤ _ := le_quotient (e := n.log2 - 52) hn (by omega)
  have hneg : (-((n.log2 : Int) - 52)).toNat = 52 - n.log2 := by omega
  have hpos : ((n.log2 : Int) - 52).toNat = n.log2 - 52 := by omega
  rw [hneg, hpos] at hle
  exact hle.trans (le_roundEven _ _)

/-! ### The range -/

theorem normalize_eq_infinite_iff {negative s : Bool} {m : Nat} {e : Int} :
    normalize negative m e = infinite s ↔
      negative = s ∧ (greatestExponent < e ∨ greatestExponent = e ∧ m = 2 ^ 53) := by
  have hbits : 1 <<< precision = 2 ^ 53 := rfl
  rw [normalize, hbits]
  grind

/-- The least whole number that is beyond the range of fractions: it is half a unit below
2 ^ 1024, where the quotient is odd. -/
def leastBeyond : Nat := (2 ^ 54 - 1) * 2 ^ 970

/-- A number of 1024 bits is rounded up to one of 1025 from half a unit below on. -/
theorem mantissaOf_eq_iff {n : Nat} (hn : n.log2 = 1023) :
    mantissaOf n = 2 ^ 53 ↔ leastBeyond ≤ n := by
  have hne : n ≠ 0 := by rintro rfl; exact absurd hn (by decide)
  have hlt : n < 2 ^ 53 * (2 * 2 ^ 970) := by
    calc n
      _ < 2 ^ (n.log2 + 1) := Nat.lt_log2_self
      _ = 2 ^ 53 * (2 * 2 ^ 970) := by rw [hn, ← pow_succ', ← pow_add]
  have hm : mantissaOf n = roundEven n (2 * 2 ^ 970) := by
    rw [mantissaOf, hn, ← pow_succ', Nat.sub_eq_zero_of_le (by omega), pow_zero, mul_one]
  rw [hm, leastBeyond]
  generalize 2 ^ 970 = d at hlt ⊢
  have hd : 0 < 2 * d := by omega
  have hdiv := Nat.div_add_mod n (2 * d)
  have hmod := Nat.mod_lt n hd
  by_cases hq : n / (2 * d) = 2 ^ 53 - 1
  · have hround := @roundEven_eq_succ_iff n (2 * d) (by omega)
    rw [hq] at hround hdiv
    omega
  · have hqlt : n / (2 * d) < 2 ^ 53 := (Nat.div_lt_iff_lt_mul hd).mpr hlt
    have hround := roundEven_le n (2 * d)
    have hsmall : n / (2 * d) + 1 ≤ 2 ^ 53 - 1 := by omega
    have hn' : n < (2 ^ 53 - 1) * (2 * d) :=
      (Nat.div_lt_iff_lt_mul hd).mp (by omega)
    omega

/-- **A whole number is out of range** from `leastBeyond` on, and from no other number. -/
theorem ofInt?_eq_none_iff {n : Int} : ofInt? n = none ↔ leastBeyond ≤ n.natAbs := by
  have hnone : ofInt? n = none ↔ ∃ s, ofRatio (n < 0) n.natAbs 1 = infinite s := by
    unfold ofInt?
    split <;> simp_all
  rw [hnone]
  by_cases hzero : n.natAbs = 0
  · have hbeyond : 0 < leastBeyond := by unfold leastBeyond; positivity
    simp only [ofRatio, if_pos hzero, zero, reduceCtorEq, exists_false, false_iff]
    omega
  simp only [ofRatio_one hzero, normalize_eq_infinite_iff, exists_and_right, exists_eq', true_and,
    greatestExponent]
  obtain hsize | hsize | hsize := lt_trichotomy n.natAbs.log2 1023
  · have hlt : n.natAbs < leastBeyond := by
      calc n.natAbs
        _ < 2 ^ 1023 := (Nat.log2_lt hzero).mp hsize
        _ ≤ leastBeyond := by decide +kernel
    omega
  · have := mantissaOf_eq_iff hsize
    omega
  · have hpow := (Nat.le_log2 hzero).mp hsize
    have hle : leastBeyond ≤ n.natAbs := le_trans (by decide +kernel) hpow
    omega

/-! ### The sign -/

/-- What is above zero: the numbers that are not zero or less, without the one that is none. -/
theorem zero_less_iff {x : Binary} :
    (zero false).less x = true ↔ x.nonPositive = false ∧ x ≠ nan := by
  cases x with
  | finite negative m e =>
    cases negative <;>
      simp [zero, less, wholeAt, signed, nonPositive, Nat.shiftLeft_eq, Nat.pos_iff_ne_zero]
  | infinite negative => simp [zero, less, nonPositive]
  | nan => simp [zero, less, nonPositive]

/-- A whole number above zero is a fraction above zero. -/
theorem zero_less_of_ofInt? {n : Int} {x : Binary} (hn : 0 < n) (hx : ofInt? n = some x) :
    (zero false).less x = true := by
  have hne : n.natAbs ≠ 0 := by omega
  have hround : ofRatio (n < 0) n.natAbs 1 = x := by
    unfold ofInt? at hx
    split at hx <;> simp_all
  have hmantissa := le_mantissaOf hne
  rw [decide_eq_false (by omega), ofRatio_one hne, normalize] at hround
  subst hround
  rw [zero_less_iff]
  split_ifs
  · simp [nonPositive]
  · simp [nonPositive, precision]
  · simp [nonPositive]
  · refine ⟨?_, by simp⟩
    simp only [nonPositive, Bool.false_or, beq_eq_false_iff_ne]
    omega

end Binary

end InlineReport
