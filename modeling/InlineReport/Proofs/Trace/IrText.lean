import InlineReport.Trace.Ir
import InlineReport.Proofs.Data.Outcome
import InlineReport.Proofs.Trace.Numeral
import Mathlib.Data.List.Infix

/-!
# IR streams that the compiler writes

The compiler writes a block of the IR stream (`IrStream.Entry`) line by line: the two fields of
the header, and then lines of which only some say what is left in the code. The scanner takes
a line apart from both sides. It begins at the *first* ` changes[*]` and reads the offsets at
the *last* ` pos:`, so both literals may be repeated between the two, and the fields in front of
and between them may hold either one.

What the fields must not hold follows from that (`Entry.Fair`): no quotation mark and no colon
where one ends the field, no further offset behind the last one, and no change in a line that is
not meant as one. Then each block is read back with its changes, in order
(`IrStream.scanIr_flatMap_text`).
-/

namespace InlineReport

namespace IrStream

open Text

/-! ### Entries -/

/-- A line that says what is left in the code: the kind of operation, and its offset, which
counts in the text of an inline copy if one is given. -/
structure ChangeLine where
  value : Nat
  kind : Text
  before : Text
  between : Text
  offset : Nat
  inlineId : Option Nat
  rest : Text

/-- A line of a block below its header. -/
inductive Line
  | noise (text : Text)
  | change (c : ChangeLine)

/-- What is written about one version. -/
structure Entry where
  file : Text
  function : Text
  name : Text
  compileId : Nat
  lines : List Line

/-- `OFFSET` or `INLINE_OFFSET` -/
def ChangeLine.place (c : ChangeLine) : Text :=
  match c.inlineId with
  | none => numeral c.offset
  | some i => numeral i ++ '_' :: numeral c.offset

/-- What stands on a line behind its last ` pos`. -/
def ChangeLine.ending (c : ChangeLine) : Text := c.place ++ ' ' :: c.rest

/-- What stands on a line behind its kind. -/
def ChangeLine.effect (c : ChangeLine) : Text :=
  ' ' :: (c.before ++ (" changes[*]".toList ++
    (' ' :: (c.between ++ (" pos:".toList ++ c.ending)))))

/-- `    0 0 vVALUE KIND BEFORE changes[*] BETWEEN pos:PLACE REST` -/
def ChangeLine.text (c : ChangeLine) : Text :=
  ' ' :: ' ' :: ' ' :: ' ' :: '0' :: ' ' :: '0' :: ' ' ::
    'v' :: (numeral c.value ++ ' ' :: (c.kind ++ c.effect))

/-- The offsets of a change, in digits. -/
def ChangeLine.raw (c : ChangeLine) : RawOffset :=
  match c.inlineId with
  | none => { first := numeral c.offset, second := none }
  | some i => { first := numeral i, second := some (numeral c.offset) }

/-- The change that a line is to be read as. -/
def ChangeLine.record (c : ChangeLine) : Change where
  kind := String.ofList c.kind
  offset := c.offset
  inlineId := c.inlineId

/-- The text of a line. -/
def Line.text : Line → Text
  | noise s => s
  | change c => c.text

/-- The change that a line is, if it is one. -/
def Line.change? : Line → Option ChangeLine
  | noise _ => none
  | change c => some c

namespace Entry

/-- `  name "FILE:FUNCTION"` -/
def nameLine (e : Entry) : Text :=
  ' ' :: ' ' :: ("name \"".toList ++ (e.file ++ ':' :: (e.function ++ ['"'])))

/-- `  method "NAME:COMPILE"` -/
def methodLine (e : Entry) : Text :=
  ' ' :: ' ' :: ("method \"".toList ++ (e.name ++ ':' :: (numeral e.compileId ++ ['"'])))

/-- The lines of a block, the first of which is what follows its mark. -/
def allLines (e : Entry) : List Text :=
  [] :: e.nameLine :: e.methodLine :: e.lines.map Line.text

/-- What is written behind the mark of a block. -/
def chunk (e : Entry) : Text := e.allLines.flatMap (· ++ ['\n'])

/-- What is written for an entry. -/
def text (e : Entry) : Text := mark ++ e.chunk

/-- The block that an entry is to be read as. -/
def block (e : Entry) : IrBlock where
  file := String.ofList e.file
  name := String.ofList e.name
  compileId := e.compileId
  changes := (e.lines.filterMap Line.change?).map ChangeLine.record

end Entry

/-- What keeps the fields of a change apart. -/
structure ChangeLine.Fair (c : ChangeLine) : Prop where
  kind : c.kind ≠ [] ∧ ∀ d ∈ c.kind, isWord d
  line : '\n' ∉ c.before ∧ '\n' ∉ c.between ∧ '\n' ∉ c.rest
  rest : ¬ " pos:".toList <:+: c.rest ∧ ¬ "pos:".toList <+: c.rest
  offset : Readable c.offset
  inlineId : ∀ i ∈ c.inlineId, Readable i

/-- What keeps a line from being taken for something else. -/
def Line.Fair : Line → Prop
  | noise s => '\n' ∉ s ∧ ¬ " changes[*]".toList <:+: s ∧ ¬ mark <+: s
  | change c => c.Fair

/-- What keeps the fields of an entry apart. -/
structure Entry.Fair (e : Entry) : Prop where
  file : '\n' ∉ e.file ∧ '"' ∉ e.file ∧ ':' ∉ e.file
  function : '\n' ∉ e.function ∧ '"' ∉ e.function
  name : '\n' ∉ e.name ∧ '"' ∉ e.name
  lines : ∀ l ∈ e.lines, l.Fair
  compileId : Readable e.compileId

-- whether all characters are word characters is asked of the list, not of all characters there are
instance (c : ChangeLine) : Decidable c.Fair :=
  decidable_of_iff ((c.kind ≠ [] ∧ c.kind.all isWord) ∧
      ('\n' ∉ c.before ∧ '\n' ∉ c.between ∧ '\n' ∉ c.rest) ∧
      (¬ " pos:".toList <:+: c.rest ∧ ¬ "pos:".toList <+: c.rest) ∧
      Readable c.offset ∧ ∀ i ∈ c.inlineId, Readable i)
    ⟨fun ⟨⟨hne, hkind⟩, hline, hrest, hoffset, hinlineId⟩ =>
        ⟨⟨hne, List.all_eq_true.mp hkind⟩, hline, hrest, hoffset, hinlineId⟩,
      fun h => ⟨⟨h.kind.1, List.all_eq_true.mpr h.kind.2⟩, h.line, h.rest, h.offset, h.inlineId⟩⟩

instance : (l : Line) → Decidable l.Fair
  | .noise s =>
    inferInstanceAs (Decidable ('\n' ∉ s ∧ ¬ " changes[*]".toList <:+: s ∧ ¬ mark <+: s))
  | .change c => inferInstanceAs (Decidable c.Fair)

instance (e : Entry) : Decidable e.Fair :=
  decidable_of_iff (('\n' ∉ e.file ∧ '"' ∉ e.file ∧ ':' ∉ e.file) ∧
      ('\n' ∉ e.function ∧ '"' ∉ e.function) ∧ ('\n' ∉ e.name ∧ '"' ∉ e.name) ∧
      (∀ l ∈ e.lines, l.Fair) ∧ Readable e.compileId)
    ⟨fun ⟨hfile, hfunction, hname, hlines, hid⟩ => ⟨hfile, hfunction, hname, hlines, hid⟩,
      fun h => ⟨h.file, h.function, h.name, h.lines, h.compileId⟩⟩

variable {c : ChangeLine} {e : Entry}

/-! ### The lines of a block -/

theorem newline_not_mem_numeral (n : Nat) : '\n' ∉ numeral n := not_mem_numeral (by decide) n

theorem newline_not_mem_place (c : ChangeLine) : '\n' ∉ c.place := by
  unfold ChangeLine.place
  split <;> simp [newline_not_mem_numeral]

theorem not_mem_kind (h : c.Fair) {d : Char} (hd : isWord d = false) : d ∉ c.kind :=
  not_mem_of_forall h.kind.2 hd

theorem newline_not_mem_text (h : c.Fair) : '\n' ∉ c.text := by
  obtain ⟨hbefore, hbetween, hrest⟩ := h.line
  have hkind := not_mem_kind h (d := '\n') (by decide +kernel)
  simp [ChangeLine.text, ChangeLine.effect, ChangeLine.ending, newline_not_mem_numeral,
    newline_not_mem_place, hkind, hbefore, hbetween, hrest]

/-- A line that begins with a blank does not begin a block. -/
theorem not_mark_prefix (s : Text) : ¬ mark <+: ' ' :: s := by
  unfold mark
  simp

/-- All lines of a block are lines, and no block begins at one of them. -/
theorem line_of_mem_allLines (h : e.Fair) {s : Text} (hs : s ∈ e.allLines) :
    '\n' ∉ s ∧ ¬ mark <+: s := by
  simp only [Entry.allLines, List.mem_cons, List.mem_map] at hs
  rcases hs with rfl | rfl | rfl | ⟨l, hl, rfl⟩
  · decide
  · exact ⟨by simp [Entry.nameLine, h.file.1, h.function.1], not_mark_prefix _⟩
  · exact ⟨by simp [Entry.methodLine, newline_not_mem_numeral, h.name.1], not_mark_prefix _⟩
  · have hfair := h.lines l hl
    cases l with
    | noise s => exact ⟨hfair.1, hfair.2.2⟩
    | change c => exact ⟨newline_not_mem_text hfair, not_mark_prefix _⟩

theorem lines_chunk (h : e.Fair) : Text.lines e.chunk = e.allLines ++ [[]] :=
  lines_flatMap fun _ hs => (line_of_mem_allLines h hs).1

/-- A block is a section of the stream. -/
theorem isSection_chunk (h : e.Fair) : IsSection mark e.chunk := by
  refine ⟨?_, fun hi => ?_⟩
  · have hne : e.allLines ≠ [] := by simp [Entry.allLines]
    rw [Entry.chunk, ← List.dropLast_append_getLast hne, List.flatMap_append,
      List.flatMap_singleton, ← List.append_assoc]
    exact List.suffix_append _ _
  · obtain ⟨s, hs, hmark⟩ := exists_mem_lines_of_isInfix (by decide) hi
    rw [lines_chunk h] at hs
    rcases List.mem_append.mp (List.mem_of_mem_tail hs) with hs | hs
    · exact (line_of_mem_allLines h hs).2 hmark
    · rw [List.mem_singleton.mp hs] at hmark
      exact absurd hmark (by decide)

/-! ### The header -/

theorem readsBehind_method? : ReadsBehind ['"'] method? := by
  intro s hs
  rw [method?, hs]
  rfl

/-- The number of a method field is not read inside its name: the field ends too late for
that. -/
theorem passes_methodEnd? {name : Text} (hname : '"' ∉ name) (id : Nat) (rest : Text) :
    Passes methodEnd? name (':' :: (numeral id ++ '"' :: rest)) := by
  intro y hy hne
  rw [Option.eq_none_iff_forall_ne_some]
  intro digits h
  simp only [methodEnd?, Option.bind_eq_bind, Option.bind_eq_some_iff, Option.pure_def,
    Option.some.injEq, Prod.exists] at h
  obtain ⟨s, hcolon, digits, s', hdigits, below, hquote, rfl⟩ := h
  obtain ⟨rfl, -, hall⟩ := run?_eq_some hdigits
  rw [cut?_eq_some_iff] at hcolon hquote
  subst hquote
  -- up to the first quotation mark, the text is a colon and digits
  have hquoted : '"' ∉ y := fun hm => hname (hy.subset hm)
  have hleft : '"' ∉ y ++ ':' :: numeral id := by
    simp [not_mem_numeral (c := '"') (by decide), hquoted]
  have hright : '"' ∉ ':' :: digits := by
    simp [not_mem_of_forall hall (c := '"') (by decide)]
  have hfield : y ++ ':' :: numeral id = ':' :: digits := by
    have heq : (y ++ ':' :: numeral id) ++ '"' :: rest = (':' :: digits) ++ '"' :: below := by
      simpa using hcolon
    exact eq_of_append_cons_eq hleft hright heq
  -- so there is no second colon, but the name ends in front of one
  cases y with
  | nil => exact hne rfl
  | cons c y =>
    have htail : y ++ ':' :: numeral id = digits := (List.cons.inj hfield).2
    have hmem : ':' ∈ digits := htail ▸ by simp
    exact not_mem_of_forall hall (by decide) hmem

theorem methodEnd?_numeral (id : Nat) (rest : Text) :
    methodEnd? (':' :: (numeral id ++ '"' :: rest)) = some (numeral id) := by
  have hdigits := digits?_numeral id (c := '"') (by decide) rest
  simp [methodEnd?, cut?, hdigits]

/-- **The header is read** as it was written. -/
theorem header?_chunk (h : e.Fair) :
    header? e.chunk = some {
      file := e.file
      name := e.name
      compileId := numeral e.compileId } := by
  obtain ⟨hfileLine, -, hcolon⟩ := h.file
  set below := '\n' :: (e.lines.map Line.text).flatMap (· ++ ['\n']) with hbelow
  set method := "method \"".toList ++ (e.name ++ ':' :: (numeral e.compileId ++ '"' :: below))
    with hmethod
  have hchunk : e.chunk = ['\n', ' ', ' '] ++ 'n' :: ("ame \"".toList ++ (e.file ++ ([':'] ++
      (e.function ++ '"' :: (['\n', ' ', ' '] ++ method))))) := by
    simp [Entry.chunk, Entry.allLines, Entry.nameLine, Entry.methodLine, hmethod, hbelow]
  have hname : upTo onLine methodEnd? (e.name ++ ':' :: (numeral e.compileId ++ '"' :: below)) =
      some (e.name, numeral e.compileId) :=
    upTo_append (forall_onLine h.name.1) (passes_methodEnd? h.name.2 _ _) (methodEnd?_numeral _ _)
  have hfields : method? ('"' :: (['\n', ' ', ' '] ++ method)) =
      some (e.name, numeral e.compileId) := by
    have hrun : run? isBlank (['\n', ' ', ' '] ++ method) = some (['\n', ' ', ' '], method) :=
      run?_append (by simp) (List.all_eq_true.mp (by decide)) (by decide)
    simp only [method?, cut?, ↓reduceIte, Option.bind_eq_bind, Option.bind_some, hrun]
    rw [hmethod, cut?_append]
    exact hname
  have hfunction := upTo_append (forall_onLine h.function.1)
    ((passes_of_keepsOut (keepsOut_of_not_mem h.function.2) _).behind readsBehind_method?) hfields
  have hfile := upTo_cut?_char (forall_onLine hfileLine) hcolon []
    (e.function ++ '"' :: (['\n', ' ', ' '] ++ method))
  have hstrip : stripLeft e.chunk = "name \"".toList ++ (e.file ++ ([':'] ++
      (e.function ++ '"' :: (['\n', ' ', ' '] ++ method)))) := by
    rw [hchunk]
    exact stripLeft_append (List.all_eq_true.mp (by decide)) (by decide)
  rw [header?, hstrip, cut?_append]
  simp only [Option.bind_eq_bind, Option.bind_some, hfile, hfunction]
  rfl

/-! ### Changes -/

theorem suffix_of_digitField? {s t : Text} (h : digitField? s = some t) : t <:+ s := by
  unfold digitField? at h
  split at h
  · next c s =>
    split at h
    · rw [← Option.some.inj h]
      exact (List.suffix_cons ' ' s).trans (List.suffix_cons c _)
    · exact absurd h (by simp)
  · exact absurd h (by simp)

theorem suffix_of_valueName? {s t : Text} (h : valueName? s = some t) : t <:+ s := by
  cases s with
  | nil => exact absurd h (by simp [valueName?])
  | cons c s =>
    simp only [valueName?, Option.bind_eq_bind, Option.bind_eq_some_iff, Prod.exists] at h
    obtain ⟨-, -, digits, s', hdigits, ht⟩ := h
    exact (suffix_of_cut? ht).trans ((suffix_of_run? hdigits).trans (List.suffix_cons c s))

/-- What is read as a change holds the word for it. -/
theorem infix_of_changeFields? {s : Text} {raw : Text × RawOffset}
    (h : changeFields? s = some raw) : " changes[*]".toList <:+: s := by
  simp only [changeFields?, Option.bind_eq_bind, Option.bind_eq_some_iff, Prod.exists] at h
  obtain ⟨s₁, h₁, s₂, h₂, s₃, h₃, kind, s₄, h₄, front, s₅, h₅, -⟩ := h
  obtain ⟨rest, rfl, hcut, -⟩ := upTo_some h₅
  have hword : " changes[*]".toList <:+: rest :=
    cut?_eq_some_iff.mp hcut ▸ (List.prefix_append _ _).isInfix
  have hsuffix : front ++ rest <:+ s :=
    (suffix_of_run? h₄).trans ((suffix_of_valueName? h₃).trans
      ((suffix_of_digitField? h₂).trans (suffix_of_digitField? h₁)))
  exact (hword.trans (List.suffix_append front rest).isInfix).trans hsuffix.isInfix

/-- A line without the word for a change is none. -/
theorem rawChange?_noise {s : Text} (h : ¬ " changes[*]".toList <:+: s) (afterBlank : Bool) :
    rawChange? afterBlank s = none := by
  rw [Option.eq_none_iff_forall_ne_some]
  intro raw hraw
  simp only [rawChange?, Option.bind_eq_bind, Option.bind_eq_some_iff] at hraw
  obtain ⟨-, -, hfields⟩ := hraw
  exact h ((infix_of_changeFields? hfields).trans (List.dropWhile_suffix _).isInfix)

/-- A line of the header is no change, whatever its names hold. -/
theorem rawChange?_header {d : Char} {s : Text} (hblank : InlineReport.isBlank d = false)
    (hdigit : isDigit d = false) (afterBlank : Bool) :
    rawChange? afterBlank (' ' :: ' ' :: d :: s) = none := by
  have hstrip : stripLeft ([' ', ' '] ++ d :: s) = d :: s :=
    stripLeft_append (List.all_eq_true.mp (by decide)) hblank
  have hfield : digitField? (d :: s) = none := by
    unfold digitField?
    split
    · next c s heq =>
      obtain ⟨rfl, -⟩ := List.cons.inj heq
      rw [if_neg (by simp [hdigit])]
    · rfl
  rw [rawChange?, show ' ' :: ' ' :: d :: s = [' ', ' '] ++ d :: s from rfl, hstrip, changeFields?,
    hfield]
  cases afterBlank <;> rfl

/-- **The offsets are read**: one or two of them, and a blank behind. -/
theorem offset?_ending (c : ChangeLine) : offset? (" pos:".toList ++ c.ending) = some c.raw := by
  have hblank : ∀ t, digits? (numeral c.offset ++ ' ' :: t) = some (numeral c.offset, ' ' :: t) :=
    digits?_numeral c.offset (by decide)
  have hline : ∀ i t, digits? (numeral i ++ '_' :: t) = some (numeral i, '_' :: t) :=
    fun i => digits?_numeral i (by decide)
  cases hi : c.inlineId with
  | none =>
    simp only [offset?, cut?_append, Option.bind_eq_bind, Option.bind_some, ChangeLine.ending,
      ChangeLine.place, ChangeLine.raw, hi, hblank]
    simp [cut?]
  | some i =>
    simp only [offset?, cut?_append, Option.bind_eq_bind, Option.bind_some, ChangeLine.ending,
      ChangeLine.place, ChangeLine.raw, hi, List.append_assoc, List.cons_append, hline]
    simp [cut?, hblank]

/-- Behind its last ` pos:`, a line has no other one. -/
theorem not_infix_ending (h : c.Fair) : ¬ " pos:".toList <:+: "pos:".toList ++ c.ending := by
  obtain ⟨hin, hprefix⟩ := h.rest
  have hfront : ' ' ∉ "pos:".toList ++ c.place := by
    have hnumeral := fun n => not_mem_numeral (c := ' ') (by decide) n
    unfold ChangeLine.place
    split <;> simp [hnumeral]
  have htext : "pos:".toList ++ c.ending = "pos:".toList ++ c.place ++ ' ' :: c.rest := by
    rw [ChangeLine.ending, List.append_assoc]
  intro hi
  rw [htext] at hi
  rcases prefix_or_infix_of_isInfix hfront hi with hp | hi
  · exact hprefix hp
  · exact hin hi

theorem readsBehind_offset? : ReadsBehind " pos:".toList offset? := by
  intro s hs
  rw [offset?, hs]
  rfl

/-- The offsets of a change are found, wherever else its line holds the words for them. The first
` changes[*]` may stand further to the front than the written one, but nothing that is behind
the written one is lost. -/
theorem upTo_effect (h : c.Fair) : ∃ front back between,
    upTo anywhere (cut? " changes[*]".toList) c.effect = some (front, back) ∧
      upToLast offset? back = some (between, c.raw) := by
  have heffect : c.effect = (' ' :: c.before) ++ (" changes[*]".toList ++
      (' ' :: (c.between ++ (" pos:".toList ++ c.ending)))) := by
    rw [ChangeLine.effect, List.cons_append]
  obtain ⟨front, back, hup, pre, hback⟩ := exists_upTo_cut? (' ' :: c.before) " changes[*]".toList
    (' ' :: (c.between ++ (" pos:".toList ++ c.ending)))
  have hpos : " pos:".toList = ' ' :: "pos:".toList := by decide
  have htext : back = (pre ++ ' ' :: c.between) ++ ' ' :: ("pos:".toList ++ c.ending) := by
    rw [← hback, hpos]
    simp only [List.append_assoc, List.cons_append]
  have hread : offset? (' ' :: ("pos:".toList ++ c.ending)) = some c.raw := by
    rw [← List.cons_append, ← hpos]
    exact offset?_ending c
  have hlast := upToLast_append hread
    ((passes_nil_of_not_isInfix (not_infix_ending h)).behind readsBehind_offset?) rfl
    (pre ++ ' ' :: c.between)
  refine ⟨front, back, pre ++ ' ' :: c.between, ?_, ?_⟩
  · rw [heffect]
    exact hup
  · rw [htext]
    exact hlast

/-- **A change is read** as it was written. -/
theorem rawChange?_text (h : c.Fair) (afterBlank : Bool) :
    rawChange? afterBlank c.text = some (c.kind, c.raw) := by
  obtain ⟨front, back, between, hup, hlast⟩ := upTo_effect h
  set fields := '0' :: ' ' :: '0' :: ' ' :: 'v' :: (numeral c.value ++ ' ' :: (c.kind ++ c.effect))
    with hfields
  have htext : c.text = [' ', ' ', ' ', ' '] ++ fields := rfl
  have hread : changeFields? fields = some (c.kind, c.raw) := by
    have hzero : isDigit '0' = true := by decide
    have hletter : isWord 'v' = true := by decide +kernel
    have hvalue := digits?_numeral c.value (c := ' ') (by decide) (c.kind ++ c.effect)
    have hkind : run? isWord (c.kind ++ c.effect) = some (c.kind, c.effect) :=
      run?_append h.kind.1 h.kind.2 (by decide +kernel)
    have hname : valueName? ('v' :: (numeral c.value ++ ' ' :: (c.kind ++ c.effect))) =
        some (c.kind ++ c.effect) := by
      simp [valueName?, hletter, hvalue, cut?]
    simp only [changeFields?, hfields, digitField?, hzero, if_true, Option.bind_eq_bind,
      Option.bind_some, hname, hkind, hup, hlast]
    rfl
  have hstrip : stripLeft c.text = fields := by
    rw [htext, hfields]
    exact stripLeft_append (List.all_eq_true.mp (by decide)) (by decide)
  have hblank : InlineReport.isBlank ' ' = true := by decide
  rw [rawChange?, hstrip, hread, htext]
  simp [hblank]

/-- The change with its numbers read. -/
theorem readChange_raw (h : c.Fair) : readChange (c.kind, c.raw) = .ok c.record := by
  have hoffset := readNumber_numeral h.offset
  cases hi : c.inlineId with
  | none =>
    simp only [readChange, ChangeLine.raw, ChangeLine.record, hi, hoffset]
    rfl
  | some i =>
    have hid := readNumber_numeral (h.inlineId i hi)
    simp only [readChange, ChangeLine.raw, ChangeLine.record, hi, hoffset, hid]
    rfl

/-- **The changes of a block** are those of its lines, in order. -/
theorem rawChanges_lines {ls : List Line} (h : ∀ l ∈ ls, l.Fair) (afterBlank : Bool) :
    rawChanges afterBlank (ls.map Line.text ++ [[]]) =
      (ls.filterMap Line.change?).map fun c => (c.kind, c.raw) := by
  induction ls generalizing afterBlank with
  | nil =>
    have hnone : rawChange? afterBlank [] = none := rawChange?_noise (by simp) afterBlank
    simp [rawChanges, hnone]
  | cons l ls ih =>
    obtain ⟨hl, hls⟩ := List.forall_mem_cons.mp h
    rw [List.map_cons, List.cons_append, rawChanges, ih hls]
    cases l with
    | noise s =>
      rw [Line.text, rawChange?_noise hl.2.1, List.filterMap_cons_none rfl]
      rfl
    | change c =>
      rw [Line.text, rawChange?_text hl, List.filterMap_cons_some (by rfl), List.map_cons]
      rfl

theorem rawChanges_chunk (h : e.Fair) :
    rawChanges false (Text.lines e.chunk) =
      (e.lines.filterMap Line.change?).map fun c => (c.kind, c.raw) := by
  have hempty : rawChange? false [] = none := rfl
  have hname : ∀ b, rawChange? b e.nameLine = none := rawChange?_header (by decide) (by decide)
  have hmethod : ∀ b, rawChange? b e.methodLine = none := rawChange?_header (by decide) (by decide)
  rw [lines_chunk h]
  simp only [Entry.allLines, List.cons_append, rawChanges, hempty, hname, hmethod,
    Option.toList_none, List.nil_append]
  exact rawChanges_lines h.lines _

/-! ### The stream -/

/-- **A block is read back.** -/
theorem block_chunk (h : e.Fair) : IrStream.block e.chunk = .ok e.block := by
  have hchanges : ((e.lines.filterMap Line.change?).map fun c => (c.kind, c.raw)).mapM readChange =
      .ok ((e.lines.filterMap Line.change?).map ChangeLine.record) := by
    refine mapM_map_eq_ok fun c hc => ?_
    obtain ⟨l, hl, hlc⟩ := List.mem_filterMap.mp hc
    cases l with
    | noise s => exact absurd hlc (by simp [Line.change?])
    | change c' =>
      obtain rfl := Option.some.inj hlc
      exact readChange_raw (h.lines _ hl)
  simp only [IrStream.block, header?_chunk h, rawChanges_chunk h, hchanges,
    readNumber_numeral h.compileId]
  rfl

/-- **An IR stream is read back as it was written**: the scanner returns the block of each
entry, in order, with its changes. -/
theorem scanIr_flatMap_text (entries : List Entry) (h : ∀ e ∈ entries, e.Fair) :
    scanIr (entries.flatMap Entry.text) = .ok (entries.map Entry.block) := by
  have hsections : ((Text.splitAtLines mark (entries.flatMap Entry.text)).filter
      (!Text.isBlank ·)) = entries.map Entry.chunk := by
    rcases eq_or_ne entries [] with rfl | hne
    · have hsplit : split ('\n' :: mark) [] = [[]] :=
        split_eq_singleton (by simp) fun y hy hne => absurd (List.suffix_nil.mp hy) hne
      rw [List.flatMap_nil, Text.splitAtLines, show cut? mark [] = none from rfl, hsplit]
      rfl
    · have hparts : ∀ part ∈ entries.map Entry.chunk, IsSection mark part :=
        List.forall_mem_map.mpr fun e he => isSection_chunk (h e he)
      have hsplit := splitAtLines_flatMap (by decide) (by simpa using hne) hparts
      rw [List.flatMap_map] at hsplit
      have hblank : ∀ part ∈ entries.map Entry.chunk, Text.isBlank part = false := by
        rw [List.forall_mem_map]
        intro e _
        have hquote : '"' ∈ e.chunk := by simp [Entry.chunk, Entry.allLines, Entry.nameLine]
        exact isBlank_eq_false hquote (by decide)
      have htext : entries.flatMap Entry.text = entries.flatMap fun e => mark ++ e.chunk := rfl
      rw [htext, hsplit, filter_nil_cons hblank]
  rw [scanIr, hsections]
  exact mapM_map_eq_ok fun e he => block_chunk (h e he)

/-- Two entries that try the scanner: names that look like the ends of their fields and like a
change, a change with both of its words repeated, blank lines, and offsets on an inline copy. -/
def oddEntries : List Entry :=
  [{ file := "a.js".toList
     function := " 0 0 v1 K x changes[*] pos:1 ".toList
     name := "f:0:1".toList
     compileId := 12
     lines := [
       .noise [],
       .change {
         value := 7
         kind := "CallWithDescriptor".toList
         before := "t1 changes[*] x pos:1 ".toList
         between := " changes[*] pos:2_3 x".toList
         offset := 40
         inlineId := none
         rest := " pos".toList },
       .noise "  0 0 v8 K x changes pos:9 ".toList,
       .change {
         value := 9
         kind := "Näme_2".toList
         before := []
         between := []
         offset := 5
         inlineId := some 2
         rest := [] }] },
   { file := []
     function := []
     name := []
     compileId := 0
     lines := [.noise " begin_compilation".toList] }]

/-- The odd entries are read back. -/
theorem scanIr_oddEntries :
    (∀ e ∈ oddEntries, e.Fair) ∧
      scanIr (oddEntries.flatMap Entry.text) = .ok (oddEntries.map Entry.block) := by
  have h : ∀ e ∈ oddEntries, e.Fair := by decide +kernel
  exact ⟨h, scanIr_flatMap_text oddEntries h⟩

end IrStream

end InlineReport
