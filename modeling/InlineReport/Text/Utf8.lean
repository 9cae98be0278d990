import InlineReport.Text.Basic

/-!
# Bytes as text

A file is a sequence of bytes that UTF-8 reads as characters. The reading never
stops: where the bytes are ill-formed it takes the longest start of a well-formed
sequence, or a single byte if there is none, as one *damaged* place and goes on
behind it. What becomes of damaged places is up to the caller: the trace streams show
each as a replacement character (`Utf8.decodeLossy`), while a settings file with a
damaged place is refused (`Utf8.decode?`).
-/

namespace InlineReport

namespace Utf8

/-- The bounds that a byte has to keep. -/
abbrev ByteRange := Nat × Nat

/-- The bounds of an ordinary continuation byte. -/
def trailing : ByteRange := (0x80, 0xBF)

/-- What the first byte of a sequence says: the bits that it contributes, and the
bounds of the bytes that have to follow. The bounds of the second byte exclude overlong
forms, surrogates, and code points beyond the last. -/
def lead? (b : Nat) : Option (Nat × List ByteRange) :=
  if b < 0x80 then some (b, [])
  else if b < 0xC2 then none
  else if b < 0xE0 then some (b - 0xC0, [trailing])
  else if b = 0xE0 then some (0, [(0xA0, 0xBF), trailing])
  else if b = 0xED then some (0xD, [(0x80, 0x9F), trailing])
  else if b < 0xF0 then some (b - 0xE0, [trailing, trailing])
  else if b = 0xF0 then some (0, [(0x90, 0xBF), trailing, trailing])
  else if b < 0xF4 then some (b - 0xF0, [trailing, trailing, trailing])
  else if b = 0xF4 then some (4, [(0x80, 0x8F), trailing, trailing])
  else none

/-- Reads the bytes that have to follow a first one, as far as they keep their bounds;
gives the code point if all of them are there, and the bytes behind. -/
def follow (bits : Nat) : List ByteRange → List UInt8 → Option Nat × List UInt8
  | [], bytes => (some bits, bytes)
  | _ :: _, [] => (none, [])
  | (low, high) :: ranges, b :: bytes =>
    if low ≤ b.toNat ∧ b.toNat ≤ high then follow (64 * bits + b.toNat % 64) ranges bytes
    else (none, b :: bytes)

theorem length_follow_le (bits : Nat) (ranges : List ByteRange) (bytes : List UInt8) :
    (follow bits ranges bytes).2.length ≤ bytes.length := by
  fun_induction follow bits ranges bytes with
  | case1 => simp
  | case2 => simp
  | case3 _ _ _ _ _ _ _ ih => simp; omega
  | case4 => simp

/-- The first character of a sequence of bytes, `none` for a damaged place, and the
bytes behind it. -/
def next (b : UInt8) (bytes : List UInt8) : Option Char × List UInt8 :=
  match lead? b.toNat with
  | none => (none, bytes)
  | some (bits, ranges) =>
    ((follow bits ranges bytes).1.map Char.ofNat, (follow bits ranges bytes).2)

theorem length_next_le (b : UInt8) (bytes : List UInt8) :
    (next b bytes).2.length ≤ bytes.length := by
  unfold next
  split
  · simp
  · exact length_follow_le ..

/-- The characters of a sequence of bytes, `none` at the damaged places. -/
def units : List UInt8 → List (Option Char)
  | [] => []
  | b :: bytes => (next b bytes).1 :: units (next b bytes).2
termination_by bytes => bytes.length
decreasing_by
  have := length_next_le b bytes
  simp; omega

/-- The character that stands for a damaged place. -/
def replacement : Char := '\uFFFD'

/-- The text of a sequence of bytes, with a replacement character for each damaged
place. -/
def decodeLossy (bytes : List UInt8) : Text := (units bytes).map (·.getD replacement)

/-- The text of a sequence of bytes that has no damaged place. -/
def decode? (bytes : List UInt8) : Option Text := (units bytes).mapM id

/-- The bytes of a text. -/
def encode (s : Text) : List UInt8 := (String.ofList s).toUTF8.toList

end Utf8

end InlineReport
