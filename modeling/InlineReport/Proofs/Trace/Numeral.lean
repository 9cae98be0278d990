import InlineReport.Proofs.Text.Reading
import InlineReport.Trace.Number
import Mathlib.Data.Nat.Digits.Defs

/-!
# Numbers as a trace writes them

A number is written with the digits `0` to `9`, without needless zeros (`numeral`). A scanner
takes the longest run of digits, of any script, so a numeral is read back as it was written
when no digit stands behind it (`Text.digits?_numeral`), and its value is the number
(`Digit.value_numeral`). The same is said of the pair of ids that the source stream has behind
a closing parenthesis (`Text.idPair?_idPair`).
-/

namespace InlineReport

/-- A number in decimal digits. -/
def numeral (n : Nat) : Text := Nat.toDigits 10 n

/-- Whether a scanner reads the numeral of a number. -/
def Readable (n : Nat) : Prop := (numeral n).length ≤ Digit.longestRun

instance (n : Nat) : Decidable (Readable n) :=
  inferInstanceAs (Decidable ((numeral n).length ≤ Digit.longestRun))

/-! ### The digits of a numeral -/

/-- The ten digits, with their values. -/
theorem Digit.value?_of_isDigit {c : Char} (h : c.isDigit = true) :
    Digit.value? c = some (c.toNat - '0'.toNat) := by
  have hc : 0x30 ≤ c.toNat ∧ c.toNat < 0x30 + 10 := by
    simp only [Char.isDigit, Bool.and_eq_true, decide_eq_true_eq, ge_iff_le, UInt32.le_iff_toNat_le]
      at h
    exact ⟨h.1, Nat.lt_succ_of_le h.2⟩
  have hfind : Digit.zeros.find? (fun first => first ≤ c.toNat && c.toNat < first + 10) =
      some 0x30 := by
    rw [Digit.zeros, List.find?_cons_of_pos (by simpa using hc)]
  rw [Digit.value?, hfind]
  rfl

theorem isDigit_of_mem_numeral {n : Nat} {c : Char} (h : c ∈ numeral n) : c.isDigit = true :=
  Nat.isDigit_of_mem_toDigits (by omega) (by omega) h

theorem numeral_ne_nil (n : Nat) : numeral n ≠ [] := Nat.toDigits_ne_nil

theorem forall_mem_numeral (n : Nat) : ∀ c ∈ numeral n, isDigit c = true := by
  intro c hc
  rw [isDigit, Digit.value?_of_isDigit (isDigit_of_mem_numeral hc), Option.isSome_some]

theorem not_mem_numeral {c : Char} (hc : isDigit c = false) (n : Nat) : c ∉ numeral n :=
  Text.not_mem_of_forall (forall_mem_numeral n) hc

/-- A literal with a first character that is no digit is nowhere in a numeral. -/
theorem keepsOut_numeral {c : Char} (hc : isDigit c = false) (lead : Text) (n : Nat) :
    Text.keepsOut (c :: lead) (numeral n) :=
  Text.keepsOut_of_not_mem (not_mem_numeral hc n)

/-! ### Reading numerals -/

/-- A numeral has the value of its number. -/
theorem Digit.value_numeral (n : Nat) : Digit.value (numeral n) = n := by
  have hfold : ∀ (digits : Text) (m : Nat), (∀ c ∈ digits, c.isDigit = true) →
      digits.foldl (fun n c => 10 * n + (Digit.value? c).getD 0) m =
        digits.foldl (fun n c => 10 * n + (c.toNat - '0'.toNat)) m := by
    intro digits
    induction digits with
    | nil => intro m _; rfl
    | cons c digits ih =>
      intro m h
      obtain ⟨hc, hdigits⟩ := List.forall_mem_cons.mp h
      rw [List.foldl_cons, List.foldl_cons, Digit.value?_of_isDigit hc, Option.getD_some,
        ih _ hdigits]
  rw [Digit.value, hfold _ _ fun c => isDigit_of_mem_numeral, ← Nat.ofDigitChars_eq_foldl]
  exact Nat.ofDigitChars_ten_toDigits

theorem readNumber_numeral {n : Nat} (h : Readable n) : readNumber (numeral n) = .ok n := by
  rw [readNumber_of_length_le h, Digit.value_numeral]

namespace Text

/-- **A numeral is read** up to the first character that is no digit. -/
theorem digits?_numeral (n : Nat) {c : Char} (hc : isDigit c = false) (rest : Text) :
    digits? (numeral n ++ c :: rest) = some (numeral n, c :: rest) :=
  run?_append (numeral_ne_nil n) (forall_mem_numeral n) hc

/-! ### Pairs of ids -/

/-- Two runs of digits as a pair of ids, as it stands behind what it belongs to. -/
def pairOf (p s : Text) : Text := ')' :: (" id\x7b".toList ++ (p ++ ',' :: (s ++ ['\x7d'])))

/-- A pair of ids as it stands behind what it belongs to. -/
def idPair (compileId secondId : Nat) : Text :=
  ')' :: (" id\x7b".toList ++ (numeral compileId ++ ',' :: (numeral secondId ++ ['\x7d'])))

/-- A run of digits that may be read as a number. -/
def IsRun (p : Text) : Prop := p ≠ [] ∧ ∀ c ∈ p, isDigit c

theorem isRun_numeral (n : Nat) : IsRun (numeral n) := ⟨numeral_ne_nil n, forall_mem_numeral n⟩

/-- **Two runs of digits are read back** as a pair of ids. -/
theorem idPair?_pairOf {p s : Text} (hp : IsRun p) (hs : IsRun s) (rest : Text) :
    idPair? (pairOf p s ++ rest) = some (p, s, rest) := by
  have hcomma : isDigit ',' = false := by decide
  have hbrace : isDigit '\x7d' = false := by decide
  have hsecond : digits? (s ++ '\x7d' :: rest) = some (s, '\x7d' :: rest) :=
    run?_append hs.1 hs.2 hbrace
  have hfirst : digits? (p ++ ',' :: (s ++ '\x7d' :: rest)) =
      some (p, ',' :: (s ++ '\x7d' :: rest)) :=
    run?_append hp.1 hp.2 hcomma
  have htext : pairOf p s ++ rest =
      ") id\x7b".toList ++ (p ++ ',' :: (s ++ '\x7d' :: rest)) := by
    simp [pairOf]
  simp only [htext, idPair?, cut?_append, Option.bind_eq_bind, Option.bind_some, hfirst]
  simp [cut?, hsecond]

/-- **A pair of ids is read back.** -/
theorem idPair?_idPair (p s : Nat) (rest : Text) :
    idPair? (idPair p s ++ rest) = some (numeral p, numeral s, rest) :=
  idPair?_pairOf (isRun_numeral p) (isRun_numeral s) rest

/-- **What is read as a pair of ids**: two runs of digits that are written as one. -/
theorem idPair?_eq_some_iff {s p q rest : Text} : idPair? s = some (p, q, rest) ↔
    s = pairOf p q ++ rest ∧ IsRun p ∧ IsRun q := by
  constructor
  · intro h
    simp only [idPair?, Option.bind_eq_bind, Option.bind_eq_some_iff, Option.pure_def,
      Option.some.injEq, Prod.mk.injEq, Prod.exists] at h
    obtain ⟨s₁, h₁, p', s₂, h₂, s₃, h₃, q', s₄, h₄, s₅, h₅, rfl, rfl, rfl⟩ := h
    rw [cut?_eq_some_iff] at h₁ h₃ h₅
    obtain ⟨rfl, hp⟩ := run?_eq_some h₂
    obtain ⟨rfl, hq⟩ := run?_eq_some h₄
    subst h₁ h₃ h₅
    exact ⟨by simp [pairOf], hp, hq⟩
  · rintro ⟨rfl, hp, hq⟩
    exact idPair?_pairOf hp hq rest

theorem readsBehind_idPair? : ReadsBehind ") id\x7b".toList idPair? := by
  intro s h
  rw [idPair?, h]
  rfl

end Text

end InlineReport
