import InlineReport.Proofs.Data.StableSort
import InlineReport.Proofs.Text.Slice
import InlineReport.View.Splice

/-!
# One by one or in a single pass

`splice` makes replacements in the growing text and has to find every later span again
after what was made before it has shifted it; `weave` reads the code once, in the
offsets in which the replacements are given. Here the two are shown to be one and the
same function of the code (`splice_eq_weave`).

What carries the induction is `Replacement.Spliced.Follows`: the growing text is the part
that is done followed by the code that is still untouched, and an offset into the code
turns into an offset into the growing text by adding the shift. Spans may reach beyond
the code. Then the part that is done is shorter than its offsets say, so the length of
that part is known exactly only as long as the code has not been used up
(`Follows.length_eq`), and bounded after that (`Follows.length_le`).

The order in which the replacements are made is the stably sorted one, of which there is
only one (`StablySorted.eq`).
-/

namespace InlineReport

namespace Replacement

/-! ### The order -/

theorem stablySorted_sort (rs : List Replacement) : StablySorted (·.start) rs (sort rs) :=
  stablySorted_mergeSort (·.start) rs

/-- The order is the one that comes of insertion, which can be worked out. -/
theorem sort_eq_insertionSort (rs : List Replacement) :
    sort rs = rs.insertionSort (·.start ≤ ·.start) :=
  (stablySorted_sort rs).eq (stablySorted_insertionSort (·.start) rs)

/-! ### What the growing text holds -/

namespace Spliced

variable {code : Text} {done : Spliced} {stop : Int} {r : Replacement}

/-- **The growing text follows the code**: it is what is done, up to the offset `stop` of
the code, and the code behind that offset. -/
structure Follows (code : Text) (done : Spliced) (stop : Int) (front : Text) : Prop where
  stop_nonneg : 0 ≤ stop
  text_eq : done.text = front ++ Text.behind stop code
  /-- What is done ends no later than its offset says, shifted; -/
  length_le : front.length ≤ stop + done.shift
  /-- and exactly there as long as the code has not been used up. -/
  length_eq : stop ≤ code.length → front.length = stop + done.shift
  /-- A span starts too early in the growing text if it does so in the code. -/
  lt_lastEnd_iff : ∀ start : Int, 0 ≤ start → (start + done.shift < done.lastEnd ↔ start < stop)

theorem follows_start (code : Text) : Follows code { text := code } 0 [] where
  stop_nonneg := Int.le_refl 0
  text_eq := by simp
  length_le := Int.le_refl 0
  length_eq _ := rfl
  lt_lastEnd_iff start h := by
    change start + 0 < -1 ↔ start < 0
    omega

theorem Follows.next_of_lt {front : Text} (h : Follows code done stop front) (hr : 0 ≤ r.start)
    (hlt : r.start < stop) : done.next r = done :=
  if_pos ((h.lt_lastEnd_iff r.start hr).mpr hlt)

/-- **One replacement**: it puts the code up to its span and its text behind what is
done. -/
theorem Follows.next_of_le {front : Text} (h : Follows code done stop front)
    (hle : stop ≤ r.start) (hspan : r.start ≤ r.stop) :
    Follows code (done.next r) r.stop (front ++ Text.slice stop r.start code ++ r.text) := by
  obtain ⟨hstop, htext, hlen, hlen', hlast⟩ := h
  have hnot : ¬ r.start + done.shift < done.lastEnd := by
    rw [hlast r.start (by omega)]
    omega
  have hslice := Text.length_slice (s := code) hstop (show 0 ≤ r.start by omega)
  have hbehind := Text.length_behind (s := code) hstop
  -- what is done ends before the shifted start, so the cut falls into the code
  have hbefore : Text.before (r.start + done.shift) done.text =
      front ++ Text.slice stop r.start code := by
    rw [Text.before_eq_take (by omega), htext, List.take_append,
      List.take_of_length_le (by omega), Text.slice_eq_take_drop hstop (by omega),
      Text.behind_eq_drop hstop, List.append_cancel_left_eq, List.take_eq_take_iff,
      List.length_drop]
    omega
  have hafter : Text.behind (r.stop + done.shift) done.text = Text.behind r.stop code := by
    rw [Text.behind_eq_drop (by omega), htext, List.drop_append,
      List.drop_eq_nil_of_le (by omega), List.nil_append, Text.behind_eq_drop hstop,
      Text.behind_eq_drop (by omega), List.drop_drop]
    -- behind the end of the code both sides are empty, so the shift need not be exact there
    rcases Int.lt_or_le code.length stop with hend | hend
    · rw [List.drop_eq_nil_of_le (by omega), List.drop_eq_nil_of_le (by omega)]
    · have := hlen' hend
      congr 1
      omega
  rw [Spliced.next, if_neg hnot]
  refine ⟨by omega, ?_, ?_, ?_, ?_⟩
  · simp only [hbefore, hafter]
  · simp only [List.length_append]
    omega
  · intro hend
    have := hlen' (by omega)
    simp only [List.length_append]
    omega
  · intro start hstart
    simp only
    omega

/-- **All replacements**: what they make of the growing text is what `weaveFrom` makes of
the code. -/
theorem Follows.text_foldl {rs : List Replacement} {front : Text}
    (h : Follows code done stop front) (hrs : ∀ r ∈ rs, 0 ≤ r.start ∧ r.start ≤ r.stop) :
    (rs.foldl next done).text = front ++ weaveFrom code stop (kept stop rs) := by
  induction rs generalizing done stop front with
  | nil => exact h.text_eq
  | cons r rs ih =>
    obtain ⟨hr, hrs⟩ := List.forall_mem_cons.mp hrs
    rw [List.foldl_cons, kept]
    rcases Int.lt_or_le r.start stop with hlt | hle
    · rw [if_pos hlt, h.next_of_lt hr.1 hlt]
      exact ih h hrs
    · rw [if_neg (by omega), ih (h.next_of_le hle hr.2) hrs]
      simp only [weaveFrom, List.append_assoc]

end Spliced

/-- `splice` with its order written out. -/
theorem splice_eq_weaveFrom {code : Text} {rs : List Replacement}
    (h : ∀ r ∈ rs, 0 ≤ r.start ∧ r.start ≤ r.stop) :
    splice code rs = weaveFrom code 0 (kept 0 (sort rs)) :=
  (Spliced.follows_start code).text_foldl fun r hr =>
    h r ((stablySorted_sort rs).mem_iff.mp hr)

end Replacement

/-! ### The two ways agree -/

/-- **One by one is in a single pass**: for spans that do not begin before the code and do
not end before they begin, making the replacements in the growing text gives the code
between the kept ones and their texts, the kept ones being chosen from the stably sorted
replacements. -/
theorem splice_eq_weave {code : Text} {rs : List Replacement}
    (h : ∀ r ∈ rs, 0 ≤ r.start ∧ r.start ≤ r.stop) :
    StablySorted (·.start) rs (Replacement.sort rs) ∧ splice code rs = weave code rs :=
  ⟨Replacement.stablySorted_sort rs, Replacement.splice_eq_weaveFrom h⟩

/-- Replacements that are out of order, overlap, meet, and lie beyond a code of ten
characters. -/
def overlappingReplacements : List Replacement := [
  ⟨6, 7, "<4>".toList⟩, ⟨1, 6, "<1>".toList⟩, ⟨3, 4, "<2>".toList⟩, ⟨1, 2, "<5>".toList⟩,
  ⟨90, 95, "?".toList⟩, ⟨9, 40, "!".toList⟩]

theorem splice_overlappingReplacements :
    (∀ r ∈ overlappingReplacements, 0 ≤ r.start ∧ r.start ≤ r.stop) ∧
      splice "abcdefghij".toList overlappingReplacements = "a<1><4>hi!?".toList := by
  refine ⟨by decide, ?_⟩
  rw [(splice_eq_weave (by decide)).2, weave, Replacement.sort_eq_insertionSort]
  decide

end InlineReport
