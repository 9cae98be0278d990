import InlineReport.Trace.Source
import InlineReport.Proofs.Data.Outcome
import InlineReport.Proofs.Trace.SourceGrammar
import Mathlib.Data.List.Infix

/-!
# Source streams that the compiler writes

The compiler writes a source stream entry by entry (`SourceStream.Entry`): a header, the source,
an end mark, a placement if the entry is an inline copy, and a line for each deoptimisation.
The scanner knows nothing of entries. It cuts the text wherever the words between two blocks
stand, and searches each piece for its parts. This file says when it finds what was written.

Each field must keep out of the way of its neighbours, which `Entry.Fair` spells out field by
field: no line ends inside a name, no colon inside a file, none of the three literals that are
searched for inside a field. The source may hold anything else, end marks included, as it
reaches to the *last* one (`SourceStream.source?_code`).

That is nearly enough. The fields of a deoptimisation line are written with a single space
between them, and **the space joins them**: the literals that separate blocks and that begin
a placement both have a space inside, so the line may hold one that neither of its fields
does (`SourceStream.misread_seam`). Where no line does (`Entry.Seamless`), every entry is
read back as it was written (`SourceStream.scanSources_flatMap_text`).
-/

namespace InlineReport

namespace SourceStream

open Text

/-! ### Entries -/

/-- The text that a placement begins with. -/
def placementMark : Text := "INLINE (".toList

/-- The text that a deoptimisation begins with. -/
def deoptMark : Text := "[deoptimizing".toList

/-- The literals that a piece of the stream is found by. -/
def marks : List Text := [mark, placementMark, deoptMark]

/-- The line of a deoptimisation. -/
structure DeoptLine where
  detail : Text
  token : Text
  reason : Text

/-- The line of a placement: what is placed, and where. -/
structure PlacedLine where
  caption : Text
  place : Placement

/-- What is written about one version or inline copy. -/
structure Entry where
  file : Text
  name : Text
  compileId : Nat
  secondId : Nat
  code : Text
  placed : Option PlacedLine
  deopts : List DeoptLine

/-- What stands on a deoptimisation line behind its detail. -/
def DeoptLine.cause (d : DeoptLine) : Text := d.token ++ ' ' :: d.reason

/-- `[deoptimizing (DETAIL): begin TOKEN REASON]` -/
def DeoptLine.line (d : DeoptLine) : Text :=
  deoptMark ++ (" (".toList ++ (d.detail ++ (')' :: (": begin ".toList ++ (d.cause ++ [']'])))))

/-- `AS COPY AT <PARENT:OFFSET>` -/
def placeText (p : Placement) : Text :=
  " AS ".toList ++ (numeral p.copyId ++ (" AT <".toList ++
    (numeral p.parentId ++ ':' :: (numeral p.offset ++ ['>']))))

theorem placeText_eq (p : Placement) :
    placeText p = " AS ".toList ++ (numeral p.copyId ++ (" AT <".toList ++
      (numeral p.parentId ++ ':' :: (numeral p.offset ++ ['>'])))) := rfl

/-- `INLINE (CAPTION) id{P,S} AS COPY AT <PARENT:OFFSET>`, where the ids are those of the entry. -/
def PlacedLine.line (compileId secondId : Nat) (l : PlacedLine) : Text :=
  placementMark ++ (l.caption ++ (idPair compileId secondId ++ placeText l.place))

namespace Entry

/-- The lines below the source. -/
def remarks (e : Entry) : List Text :=
  e.placed.toList.map (PlacedLine.line e.compileId e.secondId) ++ e.deopts.map DeoptLine.line

/-- The header line `(FILE:NAME) id{P,S} ---`. -/
def header (e : Entry) : Text :=
  '(' :: (e.file ++ ':' :: (e.name ++ (idPair e.compileId e.secondId ++ " ---\n".toList)))

/-- The source with its header and the end mark. -/
def body (e : Entry) : Text := e.header ++ (e.code ++ (endMark ++ ['\n']))

/-- What is written behind the mark of a block. -/
def chunk (e : Entry) : Text := e.body ++ e.remarks.flatMap (· ++ ['\n'])

/-- What is written for an entry. -/
def text (e : Entry) : Text := mark ++ e.chunk

/-- The block that an entry is to be read as. -/
def block (e : Entry) : SourceBlock where
  file := String.ofList e.file
  name := String.ofList e.name
  compileId := e.compileId
  secondId := e.secondId
  code := e.code
  deopts := e.deopts.map fun d => String.ofList d.reason
  placement := e.placed.map (·.place)

/-- The fields of an entry that are texts. -/
def fields (e : Entry) : List Text :=
  [e.file, e.name, e.code] ++ e.placed.toList.map (·.caption) ++
    e.deopts.flatMap fun d => [d.detail, d.token, d.reason]

/-- The numbers of an entry. -/
def numbers (e : Entry) : List Nat :=
  [e.compileId, e.secondId] ++
    e.placed.toList.flatMap fun l => [l.place.copyId, l.place.parentId, l.place.offset]

end Entry

/-- What keeps the fields of a deoptimisation line apart. -/
structure DeoptLine.Fair (d : DeoptLine) : Prop where
  line : '\n' ∉ d.detail ∧ '\n' ∉ d.token ∧ '\n' ∉ d.reason
  detail : ':' ∉ d.detail
  token : ' ' ∉ d.token
  reason : ']' ∉ d.reason

/-- What keeps the fields of an entry apart. -/
structure Entry.Fair (e : Entry) : Prop where
  fields : ∀ field ∈ e.fields, ∀ lead ∈ marks, ¬ lead <:+: field
  file : ':' ∉ e.file ∧ '\n' ∉ e.file
  name : '\n' ∉ e.name
  caption : ∀ l ∈ e.placed, '\n' ∉ l.caption ∧ ¬ ") id\x7b".toList <:+: l.caption
  deopts : ∀ d ∈ e.deopts, d.Fair
  numbers : ∀ n ∈ e.numbers, Readable n

/-- No deoptimisation line of an entry holds a literal across the space between its fields:
neither the mark of a block nor, where no placement is written, that of a placement. -/
structure Entry.Seamless (e : Entry) : Prop where
  mark : ∀ d ∈ e.deopts, ¬ mark <:+: d.cause
  placement : e.placed = none → ∀ d ∈ e.deopts, ¬ placementMark <:+: d.cause

instance (d : DeoptLine) : Decidable d.Fair :=
  decidable_of_iff (('\n' ∉ d.detail ∧ '\n' ∉ d.token ∧ '\n' ∉ d.reason) ∧
      ':' ∉ d.detail ∧ ' ' ∉ d.token ∧ ']' ∉ d.reason)
    ⟨fun ⟨hline, hdetail, htoken, hreason⟩ => ⟨hline, hdetail, htoken, hreason⟩,
      fun h => ⟨h.line, h.detail, h.token, h.reason⟩⟩

instance (e : Entry) : Decidable e.Fair :=
  decidable_of_iff ((∀ field ∈ e.fields, ∀ lead ∈ marks, ¬ lead <:+: field) ∧
      (':' ∉ e.file ∧ '\n' ∉ e.file) ∧ '\n' ∉ e.name ∧
      (∀ l ∈ e.placed, '\n' ∉ l.caption ∧ ¬ ") id\x7b".toList <:+: l.caption) ∧
      (∀ d ∈ e.deopts, d.Fair) ∧ ∀ n ∈ e.numbers, Readable n)
    ⟨fun ⟨hfields, hfile, hname, hcaption, hdeopts, hnumbers⟩ =>
        ⟨hfields, hfile, hname, hcaption, hdeopts, hnumbers⟩,
      fun h => ⟨h.fields, h.file, h.name, h.caption, h.deopts, h.numbers⟩⟩

instance (e : Entry) : Decidable e.Seamless :=
  decidable_of_iff ((∀ d ∈ e.deopts, ¬ SourceStream.mark <:+: d.cause) ∧
      (e.placed = none → ∀ d ∈ e.deopts, ¬ placementMark <:+: d.cause))
    ⟨fun ⟨hmark, hplacement⟩ => ⟨hmark, hplacement⟩, fun h => ⟨h.mark, h.placement⟩⟩

variable {e : Entry} {d : DeoptLine} {lead : Text}

/-! ### Texts without a mark -/

/-- The characters that stand behind a field are in none of the marks. -/
theorem not_mem_mark (hl : lead ∈ marks) : ∀ c ∈ [':', ')', '\n', ']'], c ∉ lead := by
  have hmarks : ∀ lead ∈ marks, [':', ')', '\n', ']'].all (· ∉ lead) := by decide +kernel
  intro c hc
  simpa using List.all_eq_true.mp (hmarks lead hl) c hc

theorem keepsOut_mark_numeral (hl : lead ∈ marks) (n : Nat) : keepsOut lead (numeral n) := by
  simp only [marks, List.mem_cons, List.not_mem_nil, or_false] at hl
  rcases hl with rfl | rfl | rfl
  all_goals exact keepsOut_numeral (by decide) _ n

/-- What is written between the fields. -/
def joints : List Text := [
  ['('], [':'], " id\x7b".toList, [','], ['\x7d'], " ---\n".toList, "--- END ---\n".toList,
  " AS ".toList, " AT <".toList, ['>'], " (".toList, ": begin ".toList, ['\n']]

/-- What is written between the fields holds no mark. -/
theorem keepsOut_joint (hl : lead ∈ marks) {s : Text} (hs : s ∈ joints) : keepsOut lead s := by
  have hjoints : ∀ lead ∈ marks, ∀ s ∈ joints, keepsOut lead s := by decide +kernel
  exact hjoints lead hl s hs

/-- No mark holds another one. -/
theorem keepsOut_mark {s : Text} (hl : lead ∈ marks) (hs : s ∈ marks) (hne : lead ≠ s) :
    keepsOut lead s := by
  have hmarks : ∀ lead ∈ marks, ∀ s ∈ marks, lead ≠ s → keepsOut lead s := by decide +kernel
  exact hmarks lead hl s hs hne

theorem mark_mem : mark ∈ marks := by simp [marks]

theorem placementMark_mem : placementMark ∈ marks := by simp [marks]

theorem deoptMark_mem : deoptMark ∈ marks := by simp [marks]

theorem marks_ne : mark ≠ placementMark ∧ mark ≠ deoptMark ∧ placementMark ≠ deoptMark := by
  decide +kernel

theorem keepsOut_field (hl : lead ∈ marks) {s : Text} (hs : ¬ lead <:+: s) {c : Char}
    (hc : c ∈ [':', ')', '\n', ']']) : keepsOut lead (s ++ [c]) :=
  keepsOut_concat (not_mem_mark hl c hc) hs

theorem keepsOut_idPair (hl : lead ∈ marks) {s : Text} (hs : ¬ lead <:+: s) (p q : Nat) :
    keepsOut lead (s ++ idPair p q) := by
  have hparts : s ++ idPair p q = (s ++ [')']) ++ (" id\x7b".toList ++ (numeral p ++ ([','] ++
      (numeral q ++ ['\x7d'])))) := by
    simp [idPair]
  rw [hparts]
  refine keepsOut_append (keepsOut_field hl hs (by simp)) ?_
  refine keepsOut_append (keepsOut_joint hl (by simp [joints])) ?_
  refine keepsOut_append (keepsOut_mark_numeral hl p) ?_
  refine keepsOut_append (keepsOut_joint hl (by simp [joints])) ?_
  exact keepsOut_append (keepsOut_mark_numeral hl q) (keepsOut_joint hl (by simp [joints]))

theorem keepsOut_placeText (hl : lead ∈ marks) (p : Placement) : keepsOut lead (placeText p) := by
  rw [placeText_eq]
  refine keepsOut_append (keepsOut_joint hl (by simp [joints])) ?_
  refine keepsOut_append (keepsOut_mark_numeral hl _) ?_
  refine keepsOut_append (keepsOut_joint hl (by simp [joints])) ?_
  refine keepsOut_append (keepsOut_mark_numeral hl _) ?_
  rw [← List.singleton_append]
  refine keepsOut_append (keepsOut_joint hl (by simp [joints])) ?_
  exact keepsOut_append (keepsOut_mark_numeral hl _) (keepsOut_joint hl (by simp [joints]))

namespace Entry.Fair

theorem not_infix_file (h : e.Fair) (hl : lead ∈ marks) : ¬ lead <:+: e.file :=
  h.fields _ (by simp [Entry.fields]) lead hl

theorem not_infix_name (h : e.Fair) (hl : lead ∈ marks) : ¬ lead <:+: e.name :=
  h.fields _ (by simp [Entry.fields]) lead hl

theorem not_infix_code (h : e.Fair) (hl : lead ∈ marks) : ¬ lead <:+: e.code :=
  h.fields _ (by simp [Entry.fields]) lead hl

theorem not_infix_caption (h : e.Fair) (hl : lead ∈ marks) {l : PlacedLine} (hp : l ∈ e.placed) :
    ¬ lead <:+: l.caption :=
  h.fields _ (by simp [Entry.fields, Option.mem_def.mp hp]) lead hl

theorem not_infix_detail (h : e.Fair) (hl : lead ∈ marks) (hd : d ∈ e.deopts) :
    ¬ lead <:+: d.detail :=
  h.fields _ (List.mem_append_right _ (List.mem_flatMap.mpr ⟨d, hd, by simp⟩)) lead hl

end Entry.Fair

/-- The source and what encloses it hold no mark. -/
theorem keepsOut_body (h : e.Fair) (hl : lead ∈ marks) : keepsOut lead e.body := by
  have hparts : e.body = ['('] ++ ((e.file ++ [':']) ++
      ((e.name ++ idPair e.compileId e.secondId) ++
        (" ---\n".toList ++ ((e.code ++ ['\n']) ++ "--- END ---\n".toList)))) := by
    have hend : endMark ++ ['\n'] = '\n' :: "--- END ---\n".toList := rfl
    rw [Entry.body, Entry.header, hend]
    simp only [List.append_assoc, List.cons_append, List.nil_append]
  rw [hparts]
  refine keepsOut_append (keepsOut_joint hl (by simp [joints])) ?_
  refine keepsOut_append (keepsOut_field hl (h.not_infix_file hl) (by simp)) ?_
  refine keepsOut_append (keepsOut_idPair hl (h.not_infix_name hl) _ _) ?_
  refine keepsOut_append (keepsOut_joint hl (by simp [joints])) ?_
  refine keepsOut_append (keepsOut_field hl (h.not_infix_code hl) (by simp)) ?_
  exact keepsOut_joint hl (by simp [joints])

/-- A placement line holds no mark but the one it begins with. -/
theorem keepsOut_placed (h : e.Fair) (hl : lead ∈ marks) (hne : lead ≠ placementMark)
    {l : PlacedLine} (hp : l ∈ e.placed) :
    keepsOut lead (l.line e.compileId e.secondId ++ ['\n']) := by
  rw [PlacedLine.line, ← List.append_assoc l.caption]
  have hmark := keepsOut_mark hl placementMark_mem hne
  refine keepsOut_append (keepsOut_append hmark (keepsOut_append ?_ ?_)) ?_
  · exact keepsOut_idPair hl (h.not_infix_caption hl hp) _ _
  · exact keepsOut_placeText hl l.place
  · exact keepsOut_joint hl (by simp [joints])

/-- A deoptimisation line holds no mark but the one it begins with, and those across its seam. -/
theorem keepsOut_deopt (h : e.Fair) (hl : lead ∈ marks) (hne : lead ≠ deoptMark)
    (hd : d ∈ e.deopts) (hcause : ¬ lead <:+: d.cause) : keepsOut lead (d.line ++ ['\n']) := by
  have hparts : d.line ++ ['\n'] = deoptMark ++ (" (".toList ++ ((d.detail ++ [')']) ++
      (": begin ".toList ++ ((d.cause ++ [']']) ++ ['\n'])))) := by
    simp [DeoptLine.line]
  rw [hparts]
  have hmark := keepsOut_mark hl deoptMark_mem hne
  refine keepsOut_append hmark (keepsOut_append (keepsOut_joint hl (by simp [joints])) ?_)
  refine keepsOut_append (keepsOut_field hl (h.not_infix_detail hl hd) (by simp)) ?_
  refine keepsOut_append (keepsOut_joint hl (by simp [joints])) ?_
  exact keepsOut_append (keepsOut_field hl hcause (by simp)) (keepsOut_joint hl (by simp [joints]))

/-! ### The header and the source -/

theorem not_mem_idPair {c : Char} (hc : isDigit c = false)
    (hl : c ∉ [')', ' ', 'i', 'd', '\x7b', ',', '\x7d']) (p q : Nat) : c ∉ idPair p q := by
  simp only [List.mem_cons, List.not_mem_nil, or_false, not_or] at hl
  simp [idPair, hl, not_mem_numeral hc]

/-- **The header is read** as it was written. -/
theorem header?_chunk (h : e.Fair) :
    header? e.chunk = some {
      file := e.file
      name := e.name
      compileId := numeral e.compileId
      secondId := numeral e.secondId
      rest := e.code ++ (endMark ++ ['\n']) ++ e.remarks.flatMap (· ++ ['\n']) } := by
  refine header?_eq_some_iff.mpr {
    split := ⟨[], by simp, ?_⟩
    file := h.file
    name := h.name
    compileId := isRun_numeral e.compileId
    secondId := isRun_numeral e.secondId }
  simp [Entry.chunk, Entry.body, Entry.header, idPair, pairOf]

/-- The lines below the source are lines, and none of them is an end mark. -/
theorem line_of_mem_remarks (h : e.Fair) {l : Text} (hl : l ∈ e.remarks) :
    '\n' ∉ l ∧ ¬ "--- END ---".toList <+: l := by
  have hnewline : isDigit '\n' = false := by decide
  rcases List.mem_append.mp hl with hl | hl
  · obtain ⟨placed, hplaced, rfl⟩ := List.mem_map.mp hl
    have hcaption := (h.caption placed (Option.mem_toList.mp hplaced)).1
    have hmark : '\n' ∉ placementMark := by decide
    refine ⟨?_, fun hp => ?_⟩
    · simp [PlacedLine.line, placeText_eq, hmark, hcaption, not_mem_numeral hnewline,
        not_mem_idPair hnewline]
    · unfold PlacedLine.line placementMark at hp
      simp at hp
  · obtain ⟨d, hd, rfl⟩ := List.mem_map.mp hl
    obtain ⟨hdetail, htoken, hreason⟩ := (h.deopts d hd).line
    have hmark : '\n' ∉ deoptMark := by decide
    refine ⟨?_, fun hp => ?_⟩
    · simp [DeoptLine.line, DeoptLine.cause, hmark, hdetail, htoken, hreason]
    · unfold DeoptLine.line deoptMark at hp
      simp at hp

/-- **The source is read** whatever it holds: it ends before the last end mark. -/
theorem source?_code (h : e.Fair) :
    source? (e.code ++ (endMark ++ ['\n']) ++ e.remarks.flatMap (· ++ ['\n'])) = some e.code := by
  set below := ("--- END ---".toList :: e.remarks).flatMap (· ++ ['\n']) with hbelow
  have hlines : ∀ l ∈ "--- END ---".toList :: e.remarks, '\n' ∉ l :=
    List.forall_mem_cons.mpr ⟨by decide, fun l hl => (line_of_mem_remarks h hl).1⟩
  -- an end mark further down would be a line of its own
  have hpass : Passes (cut? endMark) below [] := by
    refine passes_nil_of_not_isInfix fun hi => ?_
    obtain ⟨l, hl, hlead⟩ := exists_mem_lines_of_isInfix (by decide) hi
    rw [hbelow, lines_flatMap hlines, List.cons_append, List.tail_cons] at hl
    rcases List.mem_append.mp hl with hl | hl
    · exact (line_of_mem_remarks h hl).2 hlead
    · rw [List.mem_singleton.mp hl] at hlead
      exact absurd hlead (by decide)
  have hcut : cut? endMark ('\n' :: below) = some ('\n' :: e.remarks.flatMap (· ++ ['\n'])) := by
    rw [cut?_eq_some_iff, hbelow, List.flatMap_cons, List.append_assoc]
    rfl
  have hsource := upToLast_append hcut hpass (by decide) e.code
  have htext : e.code ++ (endMark ++ ['\n']) ++ e.remarks.flatMap (· ++ ['\n']) =
      e.code ++ '\n' :: below := by
    rw [hbelow, List.flatMap_cons, List.append_assoc]
    rfl
  rw [source?, htext, hsource]
  rfl

/-! ### The placement -/

theorem readsBehind_placement? : ReadsBehind placementMark placement? := by
  intro s hs
  unfold placementMark at hs
  rw [placement?, hs]
  rfl

theorem readsBehind_placementEnd? : ReadsBehind ") id\x7b".toList placementEnd? := by
  intro s hs
  rw [placementEnd?, readsBehind_idPair? s hs]
  rfl

theorem placementEnd?_placeText (p s : Nat) (place : Placement) (rest : Text) :
    placementEnd? (idPair p s ++ (placeText place ++ rest)) = some {
      copyId := numeral place.copyId
      parentId := numeral place.parentId
      offset := numeral place.offset } := by
  have hat : ∀ t, digits? (numeral place.copyId ++ (" AT <".toList ++ t)) =
      some (numeral place.copyId, " AT <".toList ++ t) :=
    fun t => digits?_numeral place.copyId (by decide) _
  have hcolon : ∀ t, digits? (numeral place.parentId ++ ':' :: t) =
      some (numeral place.parentId, ':' :: t) :=
    digits?_numeral place.parentId (by decide)
  have hangle : ∀ t, digits? (numeral place.offset ++ '>' :: t) =
      some (numeral place.offset, '>' :: t) :=
    digits?_numeral place.offset (by decide)
  simp only [placementEnd?, placeText_eq, idPair?_idPair, List.append_assoc, List.cons_append,
    List.nil_append, Option.bind_eq_bind, Option.bind_some, cut?_append, hat, hcolon]
  simp [cut?, hangle]

/-- **A placement is read** in front of whatever follows. -/
theorem placement?_line {l : PlacedLine} (hline : '\n' ∉ l.caption)
    (hids : ¬ ") id\x7b".toList <:+: l.caption) (p s : Nat) (rest : Text) :
    placement? (l.line p s ++ rest) = some {
      copyId := numeral l.place.copyId
      parentId := numeral l.place.parentId
      offset := numeral l.place.offset } := by
  obtain ⟨ids, hpair⟩ : ∃ ids, idPair p s = ')' :: ids := ⟨_, rfl⟩
  have hpass : Passes placementEnd? l.caption (idPair p s ++ (placeText l.place ++ rest)) := by
    rw [hpair, List.cons_append]
    exact (passes_of_not_isInfix (by decide) hids).behind readsBehind_placementEnd?
  have hup := upTo_append (forall_onLine hline) hpass (placementEnd?_placeText p s l.place rest)
  unfold placement? PlacedLine.line placementMark
  simp only [List.append_assoc, cut?_append, Option.bind_eq_bind, Option.bind_some, hup]
  rfl

/-- The deoptimisation lines of an entry hold nothing that a placement begins with, if the
entry has no placement. -/
theorem keepsOut_deopts (h : e.Fair) (hl : lead ∈ marks) (hne : lead ≠ deoptMark)
    (hcause : ∀ d ∈ e.deopts, ¬ lead <:+: d.cause) :
    keepsOut lead ((e.deopts.map DeoptLine.line).flatMap (· ++ ['\n'])) := by
  rw [List.flatMap_map]
  exact keepsOut_flatMap fun d hd => keepsOut_deopt h hl hne hd (hcause d hd)

/-- **The placement is found**, and nothing is taken for one. -/
theorem upTo_placement? (h : e.Fair) (hs : e.Seamless) :
    (upTo anywhere placement? e.chunk).map (·.2) = e.placed.map fun l => {
      copyId := numeral l.place.copyId
      parentId := numeral l.place.parentId
      offset := numeral l.place.offset } := by
  have hbody := keepsOut_body h placementMark_mem
  cases hplaced : e.placed with
  | none =>
    have hremarks : e.remarks = e.deopts.map DeoptLine.line := by simp [Entry.remarks, hplaced]
    have hout : keepsOut placementMark e.chunk := by
      rw [Entry.chunk, hremarks]
      exact keepsOut_append hbody (keepsOut_deopts h placementMark_mem marks_ne.2.2
        (hs.placement hplaced))
    have hpass := (passes_of_keepsOut hout []).behind readsBehind_placement?
    rw [upTo_eq_none hpass rfl]
    rfl
  | some l =>
    obtain ⟨hline, hids⟩ := h.caption l hplaced
    have hchunk : e.chunk = e.body ++ (l.line e.compileId e.secondId ++
        ('\n' :: (e.deopts.map DeoptLine.line).flatMap (· ++ ['\n']))) := by
      simp [Entry.chunk, Entry.remarks, hplaced]
    have hpass := fun rest => (passes_of_keepsOut hbody rest).behind readsBehind_placement?
    rw [hchunk, upTo_append (forall_anywhere _) (hpass _) (placement?_line hline hids _ _ _)]
    rfl

/-! ### The deoptimisations -/

theorem readsBehind_deopt? : ReadsBehind deoptMark deopt? := by
  intro s hs
  unfold deoptMark at hs
  rw [deopt?, hs]
  rfl

/-- **A deoptimisation line is read** in front of whatever follows. -/
theorem deopt?_line (hd : d.Fair) (rest : Text) :
    deopt? (d.line ++ rest) = some (d.reason, rest) := by
  obtain ⟨hdetail, htoken, hreason⟩ := hd.line
  have hcolon : ':' ∉ " (".toList ++ (d.detail ++ [')']) := by simp [hd.detail]
  have hbegin := upTo_cut?_char (forall_bne hcolon) hcolon " begin ".toList
    (d.token ++ ([' '] ++ (d.reason ++ ([']'] ++ rest))))
  have hspace := upTo_cut?_char (forall_bne hd.token) hd.token [] (d.reason ++ ([']'] ++ rest))
  have hbracket := upTo_cut?_char (forall_onLine hreason) hd.reason [] rest
  have htext : d.line ++ rest = "[deoptimizing".toList ++ ((" (".toList ++ (d.detail ++ [')'])) ++
      (": begin ".toList ++ (d.token ++ ([' '] ++ (d.reason ++ ([']'] ++ rest)))))) := by
    unfold DeoptLine.line DeoptLine.cause deoptMark
    simp only [List.append_assoc, List.cons_append, List.nil_append]
  rw [htext, deopt?]
  simp only [cut?_append, Option.bind_eq_bind, Option.bind_some]
  rw [show ": begin ".toList = ':' :: " begin ".toList from rfl, hbegin]
  simp only [Option.bind_some, hspace]
  exact hbracket

theorem line_ne_nil (d : DeoptLine) : d.line ≠ [] := by simp [DeoptLine.line]

/-- **The deoptimisations are read** in their order, and nothing is taken for one. -/
theorem readAll_deopt? (h : e.Fair) :
    readAll deopt? e.chunk = e.deopts.map (·.reason) := by
  have hmark := deoptMark_mem
  have hnewline : keepsOut deoptMark ['\n'] := keepsOut_joint hmark (by simp [joints])
  -- the line breaks between the deoptimisations are passed over
  have hlines : ∀ ds : List DeoptLine, (∀ d ∈ ds, d.Fair) →
      readAll deopt? ((ds.map DeoptLine.line).flatMap (· ++ ['\n'])) = ds.map (·.reason) := by
    intro ds
    induction ds with
    | nil => intro _; exact readAll_nil rfl
    | cons d ds ih =>
      intro hds
      obtain ⟨hd, hds⟩ := List.forall_mem_cons.mp hds
      rw [List.map_cons, List.flatMap_cons, List.append_assoc, List.map_cons,
        readAll_cons (deopt?_line hd _) (line_ne_nil d), ← ih hds]
      congr 1
      exact readAll_append ((passes_of_keepsOut hnewline _).behind readsBehind_deopt?)
  have hfront : keepsOut deoptMark (e.body ++
      (e.placed.toList.map (PlacedLine.line e.compileId e.secondId)).flatMap (· ++ ['\n'])) := by
    rw [List.flatMap_map]
    refine keepsOut_append (keepsOut_body h hmark) (keepsOut_flatMap fun l hl => ?_)
    exact keepsOut_placed h hmark marks_ne.2.2.symm (Option.mem_toList.mp hl)
  have hchunk : e.chunk = (e.body ++
      (e.placed.toList.map (PlacedLine.line e.compileId e.secondId)).flatMap (· ++ ['\n'])) ++
      (e.deopts.map DeoptLine.line).flatMap (· ++ ['\n']) := by
    rw [Entry.chunk, Entry.remarks, List.flatMap_append, List.append_assoc]
  rw [hchunk, readAll_append ((passes_of_keepsOut hfront _).behind readsBehind_deopt?)]
  exact hlines e.deopts h.deopts

/-! ### The stream -/

theorem read_placement {p : Placement}
    (h : ∀ n ∈ [p.copyId, p.parentId, p.offset], Readable n) :
    RawPlacement.read {
      copyId := numeral p.copyId
      parentId := numeral p.parentId
      offset := numeral p.offset } = .ok p := by
  have hread : ∀ n ∈ [p.copyId, p.parentId, p.offset], readNumber (numeral n) = .ok n :=
    fun n hn => readNumber_numeral (h n hn)
  simp only [List.forall_mem_cons] at hread
  obtain ⟨hcopy, hparent, hoffset, -⟩ := hread
  simp only [RawPlacement.read, hcopy, hparent, hoffset]
  rfl

/-- **An entry is read back.** -/
theorem block_chunk (h : e.Fair) (hs : e.Seamless) : SourceStream.block e.chunk = .ok e.block := by
  have hcompile := readNumber_numeral (h.numbers e.compileId (by simp [Entry.numbers]))
  have hsecond := readNumber_numeral (h.numbers e.secondId (by simp [Entry.numbers]))
  have hplaced : ((upTo anywhere placement? e.chunk).map (·.2)).mapM RawPlacement.read =
      .ok (e.placed.map (·.place)) := by
    rw [upTo_placement? h hs]
    cases hp : e.placed with
    | none => rfl
    | some l =>
      have hread := read_placement (p := l.place) fun n hn =>
        h.numbers n (List.mem_append_right _ (List.mem_flatMap.mpr ⟨l, by simp [hp], hn⟩))
      rw [Option.map_some, Option.map_some, Option.mapM_some, hread]
      rfl
  simp only [SourceStream.block, header?_chunk h, source?_code h, readAll_deopt? h, hplaced,
    hcompile, hsecond]
  rw [List.map_map]
  rfl

/-- The mark of a block is in none of the entries. -/
theorem keepsOut_chunk (h : e.Fair) (hs : e.Seamless) : keepsOut mark e.chunk := by
  rw [Entry.chunk, Entry.remarks, List.flatMap_append, List.flatMap_map]
  refine keepsOut_append (keepsOut_body h mark_mem) (keepsOut_append ?_ ?_)
  · refine keepsOut_flatMap fun l hl => ?_
    exact keepsOut_placed h mark_mem marks_ne.1 (Option.mem_toList.mp hl)
  · exact keepsOut_deopts h mark_mem marks_ne.2.1 hs.mark

/-- **A source stream is read back as it was written**: the scanner returns the block of each
entry, in order, if the fields keep apart and no deoptimisation line holds a literal across
the space between its fields. -/
theorem scanSources_flatMap_text (entries : List Entry) (h : ∀ e ∈ entries, e.Fair ∧ e.Seamless) :
    scanSources (entries.flatMap Entry.text) = .ok (entries.map Entry.block) := by
  have hsplit : split mark (entries.flatMap Entry.text) = [] :: entries.map Entry.chunk := by
    have hparts : ∀ part ∈ entries.map Entry.chunk, keepsOut mark part :=
      List.forall_mem_map.mpr fun e he => keepsOut_chunk (h e he).1 (h e he).2
    have hcut := split_flatMap (s := []) (by decide) hparts rfl
    rwa [List.flatMap_map, List.nil_append] at hcut
  have hblank : ∀ part ∈ entries.map Entry.chunk, Text.isBlank part = false := by
    rw [List.forall_mem_map]
    intro e _
    have hparen : '(' ∈ e.chunk := by simp [Entry.chunk, Entry.body, Entry.header]
    exact isBlank_eq_false hparen (by decide)
  rw [scanSources, hsplit, filter_nil_cons hblank]
  exact mapM_map_eq_ok fun e he => block_chunk (h e he).1 (h e he).2

/-- Two entries that try the scanner: an inline copy whose source has end marks and blank
lines, with a name that looks like the end of a header, and a version with empty fields. -/
def oddEntries : List Entry :=
  [{ file := "a.js".toList
     name := "f) id\x7b7,7\x7d ---".toList
     compileId := 0
     secondId := 2
     code := "x\n--- END ---\n\n] INLINE".toList
     placed := some {
       caption := "SHARED) id".toList
       place := { copyId := 1, parentId := 0, offset := 12 } }
     deopts := [
       { detail := "DEOPT eager".toList
         token := "0x1".toList
         reason := "wrong map [INLINE".toList },
       { detail := [], token := [], reason := [] }] },
   { file := []
     name := []
     compileId := 3
     secondId := 0
     code := []
     placed := none
     deopts := [] }]

/-- The odd entries are read back. -/
theorem scanSources_oddEntries :
    (∀ e ∈ oddEntries, e.Fair ∧ e.Seamless) ∧
      scanSources (oddEntries.flatMap Entry.text) = .ok (oddEntries.map Entry.block) := by
  have h : ∀ e ∈ oddEntries, e.Fair ∧ e.Seamless := by decide +kernel
  exact ⟨h, scanSources_flatMap_text oddEntries h⟩

/-- An entry with one deoptimisation, from its token and its reason. -/
def seamEntry (token reason : String) : Entry where
  file := "a.js".toList
  name := "f".toList
  compileId := 0
  secondId := 0
  code := "x".toList
  placed := none
  deopts := [{ detail := "DEOPT".toList, token := token.toList, reason := reason.toList }]

/-- **The space joins the fields of a deoptimisation line.** Both entries here keep their
fields apart. The line of the first one is cut in two, which leaves no stream; in the line of
the second one a placement is found that was never written. -/
theorem misread_seam :
    (seamEntry "---" "FUNCTION SOURCE x").Fair ∧
      scanSources ([seamEntry "---" "FUNCTION SOURCE x"].flatMap Entry.text) ≠
        .ok ([seamEntry "---" "FUNCTION SOURCE x"].map Entry.block) ∧
    (seamEntry "INLINE" "(g) id\x7b1,2\x7d AS 3 AT <4:5>").Fair ∧
      scanSources ([seamEntry "INLINE" "(g) id\x7b1,2\x7d AS 3 AT <4:5>"].flatMap Entry.text) ≠
        .ok ([seamEntry "INLINE" "(g) id\x7b1,2\x7d AS 3 AT <4:5>"].map Entry.block) := by
  have hfair : ∀ e ∈ [seamEntry "---" "FUNCTION SOURCE x",
      seamEntry "INLINE" "(g) id\x7b1,2\x7d AS 3 AT <4:5>"], e.Fair := by
    decide +kernel
  have hread : (scanSources ([seamEntry "---" "FUNCTION SOURCE x"].flatMap Entry.text)).toOption =
        none ∧
      (scanSources ([seamEntry "INLINE" "(g) id\x7b1,2\x7d AS 3 AT <4:5>"].flatMap
        Entry.text)).toOption.map (·.map (·.placement)) = some [some ⟨3, 4, 5⟩] := by
    decide +kernel
  obtain ⟨hcut, hplaced⟩ := hread
  refine ⟨hfair _ (by simp), fun h => ?_, hfair _ (by simp), fun h => ?_⟩
  · rw [h] at hcut
    exact Option.some_ne_none _ hcut
  · rw [h] at hplaced
    simp [Except.toOption, Entry.block, seamEntry] at hplaced

end SourceStream

end InlineReport
