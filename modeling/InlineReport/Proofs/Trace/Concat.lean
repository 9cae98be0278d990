import InlineReport.Proofs.Text.Cutting
import InlineReport.Trace.Ir
import InlineReport.Trace.Source
import Mathlib.Control.Monad.Basic

/-!
# Streams that are put together

Two source streams, or two IR streams, may be written into one file. If the second one begins with
the mark of a block, **they are scanned one after the other** (`scan_append`): the last block of
the first stream is cut off as if nothing stood behind it, and the blocks of the second one follow.
A stream that cannot be scanned stops the scan there, so the failure is that of the first stream if
it has one, and otherwise that of the second.

An IR block begins at the beginning of a line only, so there the first stream has to end its last
line.
-/

namespace InlineReport

variable {α : Type} {a b : Text}

/-- The pieces of two texts are worked on one after the other. Nothing stands in front of the mark
that the second text begins with. -/
theorem mapM_filter_append (f : Text → Except Failure α) (pieces more : List Text) :
    ((pieces ++ more).filter (!Text.isBlank ·)).mapM f = do
      let first ← (pieces.filter (!Text.isBlank ·)).mapM f
      let second ← (([] :: more).filter (!Text.isBlank ·)).mapM f
      return first ++ second := by
  have hnil : Text.isBlank [] = true := rfl
  rw [List.filter_append, List.mapM_append, List.filter_cons_of_neg (by simp [hnil])]

theorem scanSources_append (h : SourceStream.mark <+: b) : scanSources (a ++ b) = do
    let first ← scanSources a
    let second ← scanSources b
    return first ++ second := by
  obtain ⟨rest, rfl⟩ := h
  rw [scanSources, Text.split_append_split (by decide) (by decide), mapM_filter_append,
    scanSources, scanSources, Text.split_lead (by decide)]

theorem scanIr_append (ha : a = [] ∨ ['\n'] <:+ a) (h : IrStream.mark <+: b) :
    scanIr (a ++ b) = do
      let first ← scanIr a
      let second ← scanIr b
      return first ++ second := by
  obtain ⟨rest, rfl⟩ := h
  rw [scanIr, Text.splitAtLines_append (by decide) (by decide) ha, mapM_filter_append, scanIr,
    scanIr, Text.splitAtLines_lead]

/-- **Streams are scanned one after the other**: what is put together from a stream and one that
begins with a mark has the blocks of both, in order; and where one of them cannot be scanned, the
failure is that of the first one that cannot. The second of two IR streams begins at the beginning
of a line. -/
theorem scan_append :
    (∀ a b : Text, SourceStream.mark <+: b → scanSources (a ++ b) = do
      let first ← scanSources a
      let second ← scanSources b
      return first ++ second) ∧
    ∀ a b : Text, a = [] ∨ ['\n'] <:+ a → IrStream.mark <+: b → scanIr (a ++ b) = do
      let first ← scanIr a
      let second ← scanIr b
      return first ++ second :=
  ⟨fun _ _ => scanSources_append, fun _ _ => scanIr_append⟩

/-- A source stream that ends in the beginning of a mark. -/
def brokenOff : Text :=
  "--- FUNCTION SOURCE (a.js:f) id\x7b0,0\x7d ---\nx\n--- END ---\n--- FUNCTION SOURCE".toList

/-- A source stream with a block that is none. -/
def noBlock : Text := "--- FUNCTION SOURCE (a.js)\n".toList

/-- An IR stream with one block. -/
def oneBlock : Text := "begin_compilation\n  name \"a.js:f\"\n  method \"f:0\"\n".toList

/-- The failure is that of the second stream, and the line that the first IR stream ends is not cut
off from its block. -/
theorem scan_append_noBlock :
    (SourceStream.mark <+: noBlock ∧ scanSources (brokenOff ++ noBlock) =
      .error (.trace (.malformed "function source" "(a.js)\n".toList))) ∧
    (['\n'] <:+ oneBlock ∧ IrStream.mark <+: oneBlock ∧
      scanIr (oneBlock ++ oneBlock) = .ok [
        { file := "a.js", name := "f", compileId := 0, changes := [] },
        { file := "a.js", name := "f", compileId := 0, changes := [] }]) := by
  have hmark : SourceStream.mark <+: noBlock := by decide
  have hline : ['\n'] <:+ oneBlock := by decide
  have hmark' : IrStream.mark <+: oneBlock := by decide
  refine ⟨⟨hmark, ?_⟩, hline, hmark', ?_⟩
  · rw [scan_append.1 _ _ hmark]
    decide +kernel
  · rw [scan_append.2 _ _ (Or.inr hline) hmark']
    decide +kernel

end InlineReport
