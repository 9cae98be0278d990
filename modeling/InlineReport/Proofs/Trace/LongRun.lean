import InlineReport.Proofs.Data.Outcome
import InlineReport.Proofs.Trace.IrText
import InlineReport.Trace.Source

/-!
# What stops a scan

A scan of a stream is stopped by a block that is malformed, which is a fault of the trace, or by
a number that is written with more digits than are read. **The second needs a long run of digits
in the stream** (`scanSources_eq_error`, `scanIr_eq_error`): whatever a reader takes for the
digits of a number is a run of digits that stands in its text (`Text.RunIn`), and a part of a
part of a text is a part of the text.
-/

namespace InlineReport

namespace Text

variable {α : Type} {s t run rest : Text}

/-! ### Runs of digits -/

/-- A run of digits somewhere in a text. -/
structure RunIn (s run : Text) : Prop where
  isInfix : run <:+: s
  digits : ∀ c ∈ run, isDigit c

theorem RunIn.mono (h : RunIn s run) (hs : s <:+: t) : RunIn t run := ⟨h.isInfix.trans hs, h.digits⟩

/-- A run in the text ahead is one of the text that is read. -/
theorem RunIn.behind (h : RunIn s run) (hs : s <:+ t) : RunIn t run := h.mono hs.isInfix

/-- Whether a text has a run of more digits than are read as a number. -/
def HasLongRun (s : Text) : Prop := ∃ run, RunIn s run ∧ Digit.longestRun < run.length

theorem HasLongRun.mono (h : HasLongRun s) (hs : s <:+: t) : HasLongRun t :=
  h.imp fun _ hrun => ⟨hrun.1.mono hs, hrun.2⟩

/-- A run of digits does not reach over a character that is no digit. -/
theorem RunIn.of_append_singleton {c : Char} (h : RunIn (s ++ [c]) run) (hc : isDigit c = false) :
    RunIn s run := by
  refine ⟨?_, h.digits⟩
  obtain ⟨front, back, heq⟩ := h.isInfix
  rcases List.eq_nil_or_concat back with rfl | ⟨back, d, rfl⟩
  · rcases List.eq_nil_or_concat run with rfl | ⟨run, d, rfl⟩
    · exact List.nil_infix
    · rw [List.append_nil, List.concat_eq_append, ← List.append_assoc] at heq
      obtain ⟨-, hd⟩ := List.append_inj' heq rfl
      have hdigit := h.digits d (by simp)
      rw [List.cons.inj hd |>.1, hc] at hdigit
      cases hdigit
  · rw [List.concat_eq_append, ← List.append_assoc] at heq
    exact ⟨front, back, (List.append_inj' heq rfl).1⟩

/-! ### Readers stay in their text -/

theorem runIn_of_digits? (h : digits? s = some (run, rest)) : RunIn s run ∧ rest <:+ s := by
  obtain ⟨rfl, -, hdigits⟩ := run?_eq_some h
  exact ⟨⟨(List.prefix_append run rest).isInfix, hdigits⟩, suffix_of_run? h⟩

/-- The place to which a reader passes over characters. -/
theorem exists_of_upTo {isPassed : Char → Bool} {next : Text → Option α} {front : Text} {a : α}
    (h : upTo isPassed next s = some (front, a)) : ∃ rest, rest <:+ s ∧ next rest = some a := by
  obtain ⟨rest, rfl, hnext, -⟩ := upTo_some h
  exact ⟨rest, List.suffix_append front rest, hnext⟩

theorem exists_of_upToLast {next : Text → Option α} {front : Text} {a : α}
    (h : upToLast next s = some (front, a)) : ∃ rest, rest <:+ s ∧ next rest = some a := by
  obtain ⟨rest, rfl, hnext⟩ := upToLast_some h
  exact ⟨rest, List.suffix_append front rest, hnext⟩

theorem runIn_of_idPair? {first second : Text} (h : idPair? s = some (first, second, rest)) :
    RunIn s first ∧ RunIn s second ∧ rest <:+ s := by
  obtain ⟨rfl, hfirst, hsecond⟩ := idPair?_eq_some_iff.mp h
  refine ⟨⟨⟨") id\x7b".toList, ',' :: (second ++ '\x7d' :: rest), ?_⟩, hfirst.2⟩,
    ⟨⟨") id\x7b".toList ++ (first ++ [',']), '\x7d' :: rest, ?_⟩, hsecond.2⟩,
    List.suffix_append _ rest⟩
  · simp [pairOf]
  · simp [pairOf]

/-! ### Pieces and lines -/

theorem infix_of_mem_split {mark piece : Text} (h : piece ∈ split mark s) : piece <:+: s := by
  induction s using split.induct mark with
  | case1 s front rest hfound hlength ih =>
    rw [split, hfound] at h
    simp only [if_pos hlength] at h
    obtain ⟨behind, rfl, hcut, -⟩ := upTo_some hfound
    rcases List.mem_cons.mp h with rfl | h
    · exact (List.prefix_append _ behind).isInfix
    · exact (ih h).trans ((suffix_of_cut? hcut).isInfix.trans (List.suffix_append _ _).isInfix)
  | case2 s front rest hfound hlength =>
    rw [split, hfound] at h
    simp only [if_neg hlength] at h
    rw [List.mem_singleton.mp h]
  | case3 s hfound =>
    rw [split, hfound] at h
    rw [List.mem_singleton.mp h]

theorem prefix_and_infix_of_lines {line : Text} {more : List Text} (h : lines s = line :: more) :
    line <+: s ∧ ∀ other ∈ more, other <:+: s := by
  induction s generalizing line more with
  | nil =>
    cases h
    exact ⟨List.prefix_rfl, fun _ hother => absurd hother List.not_mem_nil⟩
  | cons c s ih =>
    have hlater : s <:+: c :: s := (List.suffix_cons c s).isInfix
    by_cases hc : c = '\n'
    · rw [lines, if_pos hc] at h
      obtain ⟨rfl, rfl⟩ := List.cons.inj h
      refine ⟨List.nil_prefix, fun other hother => ?_⟩
      cases hs : lines s with
      | nil => exact absurd hs (lines_ne_nil s)
      | cons first others =>
        obtain ⟨hfirst, hothers⟩ := ih hs
        rw [hs] at hother
        rcases List.mem_cons.mp hother with rfl | hother
        · exact hfirst.isInfix.trans hlater
        · exact (hothers other hother).trans hlater
    · obtain ⟨first, others, hs, hcs⟩ := lines_cons_of_ne hc s
      obtain ⟨hfirst, hothers⟩ := ih hs
      rw [hcs] at h
      obtain ⟨rfl, rfl⟩ := List.cons.inj h
      exact ⟨(List.prefix_cons_inj c).mpr hfirst,
        fun other hother => (hothers other hother).trans hlater⟩

theorem infix_of_mem_lines {line : Text} (h : line ∈ lines s) : line <:+: s := by
  cases hs : lines s with
  | nil =>
    rw [hs] at h
    exact absurd h List.not_mem_nil
  | cons first more =>
    obtain ⟨hfirst, hmore⟩ := prefix_and_infix_of_lines hs
    rw [hs] at h
    rcases List.mem_cons.mp h with rfl | h
    · exact hfirst.isInfix
    · exact hmore line h

theorem exists_of_mem_closeLines {pieces : List Text} {piece : Text}
    (h : piece ∈ closeLines pieces) : ∃ p ∈ pieces, piece = p ∨ piece = p ++ ['\n'] := by
  induction pieces using closeLines.induct with
  | case1 => exact absurd h List.not_mem_nil
  | case2 last => exact ⟨last, List.mem_singleton_self last, .inl (List.mem_singleton.mp h)⟩
  | case3 first next more ih =>
    rcases List.mem_cons.mp h with rfl | h
    · exact ⟨first, List.mem_cons_self, .inr rfl⟩
    · exact (ih h).imp fun p hp => ⟨List.mem_cons_of_mem _ hp.1, hp.2⟩

/-- A long run in a piece that ends before a line with a mark is one of the whole text. -/
theorem HasLongRun.of_mem_splitAtLines {mark piece : Text} (hpiece : piece ∈ splitAtLines mark s)
    (h : HasLongRun piece) : HasLongRun s := by
  have hclosed {t : Text} (ht : t <:+: s) (hpiece : piece ∈ closeLines (split ('\n' :: mark) t)) :
      HasLongRun s := by
    obtain ⟨p, hp, rfl | rfl⟩ := exists_of_mem_closeLines hpiece
    · exact h.mono ((infix_of_mem_split hp).trans ht)
    · obtain ⟨run, hrun, hlong⟩ := h
      exact ⟨run, (hrun.of_append_singleton rfl).mono ((infix_of_mem_split hp).trans ht), hlong⟩
  unfold splitAtLines at hpiece
  split at hpiece
  next rest hcut =>
    rcases List.mem_cons.mp hpiece with rfl | hpiece
    · exact h.mono List.nil_infix
    · exact hclosed (suffix_of_cut? hcut).isInfix hpiece
  next => exact hclosed List.infix_rfl hpiece

end Text

/-! ### Numbers -/

variable {text : Text} {e : Failure}

/-- **What stops a scan**: a fault of the trace, or a long run of digits in its text. -/
def Stops (text : Text) (e : Failure) : Prop :=
  (∃ fault, e = .trace fault) ∨ e = Overrun.digits ∧ text.HasLongRun

theorem stops_of_readNumber {run : Text} (hrun : text.RunIn run)
    (h : readNumber run = .error e) : Stops text e := by
  unfold readNumber at h
  split at h
  · cases h
  next hlong => exact .inr ⟨(Except.error.inj h).symm, run, hrun, by omega⟩

/-! ### Source blocks -/

namespace SourceStream

open Text

theorem runIn_of_headerEnd? {s first second rest : Text}
    (h : headerEnd? s = some (first, second, rest)) : s.RunIn first ∧ s.RunIn second := by
  obtain ⟨⟨first', second', s₁⟩, hpair, h⟩ := Option.bind_eq_some_iff.mp h
  obtain ⟨s₂, -, h⟩ := Option.bind_eq_some_iff.mp h
  cases h
  obtain ⟨hfirst, hsecond, -⟩ := runIn_of_idPair? hpair
  exact ⟨hfirst, hsecond⟩

theorem runIn_of_header? {header : Header} (h : header? text = some header) :
    text.RunIn header.compileId ∧ text.RunIn header.secondId := by
  obtain ⟨s₁, hcut, h⟩ := Option.bind_eq_some_iff.mp h
  obtain ⟨⟨file, s₂⟩, hfile, h⟩ := Option.bind_eq_some_iff.mp h
  obtain ⟨⟨name, compileId, secondId, rest⟩, hname, h⟩ := Option.bind_eq_some_iff.mp h
  cases h
  obtain ⟨s₃, hs₃, hcolon⟩ := exists_of_upTo hfile
  obtain ⟨s₄, hs₄, hend⟩ := exists_of_upTo hname
  have hs := hs₄.trans ((suffix_of_cut? hcolon).trans
    (hs₃.trans ((suffix_of_cut? hcut).trans (List.dropWhile_suffix _))))
  obtain ⟨hfirst, hsecond⟩ := runIn_of_headerEnd? hend
  exact ⟨hfirst.behind hs, hsecond.behind hs⟩

/-- The digits of a placement stand in a text. -/
structure RawPlacement.In (s : Text) (p : RawPlacement) : Prop where
  copyId : s.RunIn p.copyId
  parentId : s.RunIn p.parentId
  offset : s.RunIn p.offset

theorem RawPlacement.In.behind {s t : Text} {p : RawPlacement} (h : p.In s) (hs : s <:+ t) :
    p.In t :=
  ⟨h.copyId.behind hs, h.parentId.behind hs, h.offset.behind hs⟩

theorem in_of_placementEnd? {s : Text} {p : RawPlacement} (h : placementEnd? s = some p) :
    p.In s := by
  obtain ⟨⟨_, _, s₁⟩, hpair, h⟩ := Option.bind_eq_some_iff.mp h
  obtain ⟨s₂, has, h⟩ := Option.bind_eq_some_iff.mp h
  obtain ⟨⟨copyId, s₃⟩, hcopy, h⟩ := Option.bind_eq_some_iff.mp h
  obtain ⟨s₄, hat, h⟩ := Option.bind_eq_some_iff.mp h
  obtain ⟨⟨parentId, s₅⟩, hparent, h⟩ := Option.bind_eq_some_iff.mp h
  obtain ⟨s₆, hcolon, h⟩ := Option.bind_eq_some_iff.mp h
  obtain ⟨⟨offset, s₇⟩, hoffset, h⟩ := Option.bind_eq_some_iff.mp h
  obtain ⟨s₈, -, h⟩ := Option.bind_eq_some_iff.mp h
  cases h
  obtain ⟨-, -, h₁⟩ := runIn_of_idPair? hpair
  have h₂ := (suffix_of_cut? has).trans h₁
  obtain ⟨hcopy, h₃⟩ := runIn_of_digits? hcopy
  have h₄ := (suffix_of_cut? hat).trans (h₃.trans h₂)
  obtain ⟨hparent, h₅⟩ := runIn_of_digits? hparent
  have h₆ := (suffix_of_cut? hcolon).trans (h₅.trans h₄)
  exact ⟨hcopy.behind h₂, hparent.behind h₄, (runIn_of_digits? hoffset).1.behind h₆⟩

theorem in_of_placement? {s : Text} {p : RawPlacement} (h : placement? s = some p) : p.In s := by
  obtain ⟨s₁, hcut, h⟩ := Option.bind_eq_some_iff.mp h
  obtain ⟨⟨front, place⟩, hplace, h⟩ := Option.bind_eq_some_iff.mp h
  cases h
  obtain ⟨s₂, hs₂, hend⟩ := exists_of_upTo hplace
  exact (in_of_placementEnd? hend).behind (hs₂.trans (suffix_of_cut? hcut))

theorem stops_of_read {p : RawPlacement} (hp : p.In text) (h : p.read = .error e) :
    Stops text e := by
  obtain h | ⟨_, -, h⟩ := bind_eq_error_iff.mp h
  · exact stops_of_readNumber hp.copyId h
  obtain h | ⟨_, -, h⟩ := bind_eq_error_iff.mp h
  · exact stops_of_readNumber hp.parentId h
  obtain h | ⟨_, -, ⟨⟩⟩ := bind_eq_error_iff.mp h
  exact stops_of_readNumber hp.offset h

/-- What stops at a block. -/
theorem stops_of_block (h : block text = .error e) : Stops text e := by
  unfold block at h
  cases hheader : header? text with
  | none =>
    rw [hheader] at h
    exact .inl ⟨_, (Except.error.inj h).symm⟩
  | some header =>
    obtain ⟨hcompile, hsecond⟩ := runIn_of_header? hheader
    rw [hheader] at h
    simp only at h
    cases hsource : source? header.rest with
    | none =>
      rw [hsource] at h
      exact .inl ⟨_, (Except.error.inj h).symm⟩
    | some code =>
      rw [hsource] at h
      obtain h | ⟨placement, -, h⟩ := bind_eq_error_iff.mp h
      · cases hplace : upTo anywhere placement? text with
        | none =>
          rw [hplace] at h
          cases h
        | some found =>
          obtain ⟨front, p⟩ := found
          obtain ⟨s, hs, hp⟩ := exists_of_upTo hplace
          rw [hplace, Option.map_some, Option.mapM_some] at h
          exact stops_of_read ((in_of_placement? hp).behind hs) (map_eq_error_iff.mp h)
      · obtain h | ⟨_, -, h⟩ := bind_eq_error_iff.mp h
        · exact stops_of_readNumber hcompile h
        obtain h | ⟨_, -, ⟨⟩⟩ := bind_eq_error_iff.mp h
        exact stops_of_readNumber hsecond h

end SourceStream

/-- **A source stream that cannot be scanned** is at fault, or has a long run of digits. -/
theorem scanSources_eq_error (h : scanSources text = .error e) : Stops text e := by
  obtain ⟨piece, hpiece, h⟩ := exists_mem_of_mapM_eq_error h
  refine (SourceStream.stops_of_block h).imp_right fun hlong => ⟨hlong.1, ?_⟩
  exact hlong.2.mono (Text.infix_of_mem_split (List.mem_filter.mp hpiece).1)

/-! ### IR blocks -/

namespace IrStream

open Text

theorem runIn_of_methodEnd? {s run : Text} (h : methodEnd? s = some run) : s.RunIn run := by
  obtain ⟨s₁, hcolon, h⟩ := Option.bind_eq_some_iff.mp h
  obtain ⟨⟨run', s₂⟩, hrun, h⟩ := Option.bind_eq_some_iff.mp h
  obtain ⟨s₃, -, h⟩ := Option.bind_eq_some_iff.mp h
  cases h
  exact (runIn_of_digits? hrun).1.behind (suffix_of_cut? hcolon)

theorem runIn_of_method? {s name run : Text} (h : method? s = some (name, run)) : s.RunIn run := by
  obtain ⟨s₁, hquote, h⟩ := Option.bind_eq_some_iff.mp h
  obtain ⟨⟨blanks, s₂⟩, hblanks, h⟩ := Option.bind_eq_some_iff.mp h
  obtain ⟨s₃, hmethod, h⟩ := Option.bind_eq_some_iff.mp h
  obtain ⟨s₄, hs₄, hend⟩ := exists_of_upTo h
  exact (runIn_of_methodEnd? hend).behind (hs₄.trans ((suffix_of_cut? hmethod).trans
    ((suffix_of_run? hblanks).trans (suffix_of_cut? hquote))))

theorem runIn_of_header? {header : Header} (h : header? text = some header) :
    text.RunIn header.compileId := by
  obtain ⟨s₁, hcut, h⟩ := Option.bind_eq_some_iff.mp h
  obtain ⟨⟨file, s₂⟩, hfile, h⟩ := Option.bind_eq_some_iff.mp h
  obtain ⟨⟨_, name, compileId⟩, hmethod, h⟩ := Option.bind_eq_some_iff.mp h
  cases h
  obtain ⟨s₃, hs₃, hcolon⟩ := exists_of_upTo hfile
  obtain ⟨s₄, hs₄, hmethod⟩ := exists_of_upTo hmethod
  exact (runIn_of_method? hmethod).behind (hs₄.trans ((suffix_of_cut? hcolon).trans
    (hs₃.trans ((suffix_of_cut? hcut).trans (List.dropWhile_suffix _)))))

/-- The digits of offsets stand in a text. -/
structure RawOffset.In (s : Text) (offset : RawOffset) : Prop where
  first : s.RunIn offset.first
  second : ∀ second ∈ offset.second, s.RunIn second

theorem RawOffset.In.mono {s t : Text} {offset : RawOffset} (h : offset.In s) (hs : s <:+: t) :
    offset.In t :=
  ⟨h.first.mono hs, fun second hsecond => (h.second second hsecond).mono hs⟩

theorem RawOffset.In.behind {s t : Text} {offset : RawOffset} (h : offset.In s) (hs : s <:+ t) :
    offset.In t := h.mono hs.isInfix

theorem in_of_offset? {s : Text} {offset : RawOffset} (h : offset? s = some offset) :
    offset.In s := by
  obtain ⟨s₁, hpos, h⟩ := Option.bind_eq_some_iff.mp h
  obtain ⟨⟨first, s₂⟩, hfirst, h⟩ := Option.bind_eq_some_iff.mp h
  have h₁ := suffix_of_cut? hpos
  obtain ⟨hfirst, h₂⟩ := runIn_of_digits? hfirst
  simp only at h
  split at h
  · cases h
    exact ⟨hfirst.behind h₁, fun _ hsecond => nomatch hsecond⟩
  · obtain ⟨s₃, hline, h⟩ := Option.bind_eq_some_iff.mp h
    obtain ⟨⟨second, s₄⟩, hsecond, h⟩ := Option.bind_eq_some_iff.mp h
    obtain ⟨s₅, -, h⟩ := Option.bind_eq_some_iff.mp h
    cases h
    have h₃ := (suffix_of_cut? hline).trans (h₂.trans h₁)
    refine ⟨hfirst.behind h₁, fun second' hsecond' => ?_⟩
    cases hsecond'
    exact (runIn_of_digits? hsecond).1.behind h₃

theorem in_of_changeFields? {s kind : Text} {offset : RawOffset}
    (h : changeFields? s = some (kind, offset)) : offset.In s := by
  obtain ⟨s₁, h₁, h⟩ := Option.bind_eq_some_iff.mp h
  obtain ⟨s₂, h₂, h⟩ := Option.bind_eq_some_iff.mp h
  obtain ⟨s₃, h₃, h⟩ := Option.bind_eq_some_iff.mp h
  obtain ⟨⟨kind', s₄⟩, h₄, h⟩ := Option.bind_eq_some_iff.mp h
  obtain ⟨⟨_, s₅⟩, h₅, h⟩ := Option.bind_eq_some_iff.mp h
  obtain ⟨⟨_, offset'⟩, hoffset, h⟩ := Option.bind_eq_some_iff.mp h
  cases h
  obtain ⟨s₆, h₆, hcut⟩ := exists_of_upTo h₅
  obtain ⟨s₇, h₇, hoffset⟩ := exists_of_upToLast hoffset
  exact (in_of_offset? hoffset).behind (h₇.trans ((suffix_of_cut? hcut).trans (h₆.trans
    ((suffix_of_run? h₄).trans ((suffix_of_valueName? h₃).trans
      ((suffix_of_digitField? h₂).trans (suffix_of_digitField? h₁)))))))

theorem in_of_mem_rawChanges {lines : List Text} {afterBlank : Bool} {raw : Text × RawOffset}
    (h : raw ∈ rawChanges afterBlank lines) : ∃ line ∈ lines, raw.2.In line := by
  induction lines generalizing afterBlank with
  | nil => exact absurd h List.not_mem_nil
  | cons line more ih =>
    rcases List.mem_append.mp h with h | h
    · obtain ⟨_, -, h⟩ := Option.bind_eq_some_iff.mp (Option.mem_toList.mp h)
      exact ⟨line, List.mem_cons_self, (in_of_changeFields? h).behind (List.dropWhile_suffix _)⟩
    · exact (ih h).imp fun line hline => ⟨List.mem_cons_of_mem _ hline.1, hline.2⟩

theorem stops_of_readChange {raw : Text × RawOffset} (hraw : raw.2.In text)
    (h : readChange raw = .error e) : Stops text e := by
  unfold readChange at h
  split at h
  · obtain h | ⟨_, -, ⟨⟩⟩ := bind_eq_error_iff.mp h
    exact stops_of_readNumber hraw.first h
  next second hsecond =>
    obtain h | ⟨_, -, h⟩ := bind_eq_error_iff.mp h
    · exact stops_of_readNumber (hraw.second second hsecond) h
    obtain h | ⟨_, -, ⟨⟩⟩ := bind_eq_error_iff.mp h
    exact stops_of_readNumber hraw.first h

/-- What stops at a block. -/
theorem stops_of_block (h : block text = .error e) : Stops text e := by
  unfold block at h
  cases hheader : header? text with
  | none =>
    rw [hheader] at h
    exact .inl ⟨_, (Except.error.inj h).symm⟩
  | some header =>
    rw [hheader] at h
    obtain h | ⟨_, -, h⟩ := bind_eq_error_iff.mp h
    · obtain ⟨raw, hraw, h⟩ := exists_mem_of_mapM_eq_error h
      obtain ⟨line, hline, hin⟩ := in_of_mem_rawChanges hraw
      exact stops_of_readChange (hin.mono (infix_of_mem_lines hline)) h
    obtain h | ⟨_, -, ⟨⟩⟩ := bind_eq_error_iff.mp h
    exact stops_of_readNumber (runIn_of_header? hheader) h

end IrStream

/-- **An IR stream that cannot be scanned** is at fault, or has a long run of digits. -/
theorem scanIr_eq_error (h : scanIr text = .error e) : Stops text e := by
  obtain ⟨piece, hpiece, h⟩ := exists_mem_of_mapM_eq_error h
  exact (IrStream.stops_of_block h).imp_right fun hlong =>
    ⟨hlong.1, hlong.2.of_mem_splitAtLines (List.mem_filter.mp hpiece).1⟩

end InlineReport
