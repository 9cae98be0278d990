import InlineReport.Proofs.Trace.LongRun

/-!
# How a source block can be read

A block of the source stream is a header line, a source and an end mark, with white space in
front and anything behind. A text may be cut into these parts in several ways
(`SourceStream.Reading`), and the scanner looks for one of them by trying one place after the
other. Here it is said which one it finds, and that it finds one if there is any.

**Only the end of the source is a choice.** The file ends at the first colon, for it has none
itself. The name may hold colons, braces and closing parentheses, but it stays on its line, and
the ids are what that line ends with: read from the right, the line has one run of digits up to
a brace, one up to a comma, and the name is what is in front of them. So all readings of a block
have the same header (`SourceStream.header?_eq_some_iff`), and the scanner takes the one with the
longest source (`SourceStream.source?_eq_some_iff`).
-/

namespace InlineReport

namespace SourceStream

open Text

variable {text s : Text} {header : Header}

/-! ### Headers -/

/-- A header line with white space in front of it, and the text below it. -/
structure Header.Of (header : Header) (text : Text) : Prop where
  split : ∃ blanks, (∀ c ∈ blanks, InlineReport.isBlank c) ∧
    text = blanks ++ '(' :: (header.file ++ ':' :: (header.name ++
      (pairOf header.compileId header.secondId ++ (" ---\n".toList ++ header.rest))))
  file : ':' ∉ header.file ∧ '\n' ∉ header.file
  name : '\n' ∉ header.name
  compileId : IsRun header.compileId
  secondId : IsRun header.secondId

theorem headerEnd?_eq_some_iff {p q rest : Text} : headerEnd? s = some (p, q, rest) ↔
    s = pairOf p q ++ (" ---\n".toList ++ rest) ∧ IsRun p ∧ IsRun q := by
  constructor
  · intro h
    obtain ⟨⟨p', q', below⟩, hpair, h⟩ := Option.bind_eq_some_iff.mp h
    obtain ⟨rest', hcut, h⟩ := Option.bind_eq_some_iff.mp h
    cases h
    obtain ⟨rfl, hp, hq⟩ := idPair?_eq_some_iff.mp hpair
    exact ⟨by rw [cut?_eq_some_iff.mp hcut], hp, hq⟩
  · rintro ⟨rfl, hp, hq⟩
    simp only [headerEnd?, idPair?_pairOf hp hq, Option.bind_eq_bind, Option.bind_some, cut?_append]
    rfl

/-- The ids of a header are not read inside its name: the line ends too late for that. -/
theorem passes_headerEnd? {name p q : Text} (hname : '\n' ∉ name) (hp : IsRun p) (hq : IsRun q)
    (rest : Text) : Passes headerEnd? name (pairOf p q ++ (" ---\n".toList ++ rest)) := by
  intro y hy hne
  rw [Option.eq_none_iff_forall_ne_some]
  rintro ⟨p', q', rest'⟩ h
  obtain ⟨hs, hp', hq'⟩ := headerEnd?_eq_some_iff.mp h
  -- both sides of `hs` are one line and what stands below it
  have hnewline : isDigit '\n' = false := by decide
  have hleft : '\n' ∉ y ++ (pairOf p q ++ " ---".toList) := by
    have hout : '\n' ∉ y := fun hm => hname (hy.subset hm)
    simp [pairOf, hout, not_mem_of_forall hp.2 hnewline, not_mem_of_forall hq.2 hnewline]
  have hright : '\n' ∉ pairOf p' q' ++ " ---".toList := by
    simp [pairOf, not_mem_of_forall hp'.2 hnewline, not_mem_of_forall hq'.2 hnewline]
  have hline : y ++ (pairOf p q ++ " ---".toList) = pairOf p' q' ++ " ---".toList := by
    have heq : (y ++ (pairOf p q ++ " ---".toList)) ++ '\n' :: rest =
        (pairOf p' q' ++ " ---".toList) ++ '\n' :: rest' := by
      simpa using hs
    exact eq_of_append_cons_eq hleft hright heq
  -- the line ends in a pair of ids, so a parenthesis inside the name is one too many
  cases y with
  | nil => exact hne rfl
  | cons c y =>
    have hparen : isDigit ')' = false := by decide
    have htail : y ++ (pairOf p q ++ " ---".toList) =
        " id\x7b".toList ++ (p' ++ ',' :: (q' ++ ['\x7d'])) ++ " ---".toList :=
      (List.cons.inj hline).2
    have hmem : ')' ∈ y ++ (pairOf p q ++ " ---".toList) := by simp [pairOf]
    rw [htail] at hmem
    simp [not_mem_of_forall hp'.2 hparen, not_mem_of_forall hq'.2 hparen] at hmem

theorem of_header? (h : header? text = some header) : header.Of text := by
  obtain ⟨s₁, hcut, h⟩ := Option.bind_eq_some_iff.mp h
  obtain ⟨⟨file, s₂⟩, hfile, h⟩ := Option.bind_eq_some_iff.mp h
  obtain ⟨⟨name, p, q, rest⟩, hname, h⟩ := Option.bind_eq_some_iff.mp h
  cases h
  obtain ⟨r₁, rfl, hcolon, honLine, hpass⟩ := upTo_eq_some_iff.mp hfile
  obtain rfl := cut?_eq_some_iff.mp hcolon
  obtain ⟨r₂, rfl, hend, honLine', -⟩ := upTo_eq_some_iff.mp hname
  obtain ⟨rfl, hp, hq⟩ := headerEnd?_eq_some_iff.mp hend
  have htext : text = text.takeWhile InlineReport.isBlank ++ stripLeft text :=
    List.takeWhile_append_dropWhile.symm
  rw [cut?_eq_some_iff.mp hcut] at htext
  exact {
    split := ⟨_, List.all_eq_true.mp List.all_takeWhile, htext⟩
    file := ⟨not_mem_of_passes hpass, not_mem_of_forall honLine rfl⟩
    name := not_mem_of_forall honLine' rfl
    compileId := hp
    secondId := hq }

theorem Header.Of.header?_eq (h : header.Of text) : header? text = some header := by
  obtain ⟨blanks, hblanks, rfl⟩ := h.split
  have hstrip (rest : Text) : stripLeft (blanks ++ '(' :: rest) = '(' :: rest :=
    stripLeft_append hblanks rfl
  have hfile := upTo_cut?_char (forall_onLine h.file.2) h.file.1 [] (header.name ++
    (pairOf header.compileId header.secondId ++ (" ---\n".toList ++ header.rest)))
  have hname := upTo_append (forall_onLine h.name)
    (passes_headerEnd? h.name h.compileId h.secondId header.rest)
    (headerEnd?_eq_some_iff.mpr ⟨rfl, h.compileId, h.secondId⟩)
  simp only [List.cons_append, List.nil_append] at hfile
  simp only [header?, hstrip, cut?, ↓reduceIte, Option.bind_eq_bind, Option.bind_some, hfile, hname]
  rfl

/-- **A header is read** where there is one, and in one way. -/
theorem header?_eq_some_iff : header? text = some header ↔ header.Of text :=
  ⟨of_header?, Header.Of.header?_eq⟩

/-! ### Sources -/

/-- **The source is the longest** text in front of an end mark. -/
theorem source?_eq_some_iff {code : Text} : source? s = some code ↔
    (∃ rest, s = code ++ (endMark ++ rest)) ∧
      ∀ code' rest', s = code' ++ (endMark ++ rest') → code'.length ≤ code.length := by
  constructor
  · intro h
    obtain ⟨⟨front, rest⟩, hfound, hfront⟩ := Option.map_eq_some_iff.mp h
    obtain rfl : front = code := hfront
    obtain ⟨behind, rfl, hcut, hlast⟩ := upToLast_eq_some_iff.mp hfound
    obtain rfl := cut?_eq_some_iff.mp hcut
    refine ⟨⟨rest, rfl⟩, fun code' rest' heq => ?_⟩
    by_contra hlonger
    have hlength := congrArg List.length heq
    simp only [List.length_append] at hlength
    have hright : endMark ++ rest <:+ code' ++ (endMark ++ rest') :=
      heq ▸ List.suffix_append front (endMark ++ rest)
    have hsuffix : endMark ++ rest' <:+ endMark ++ rest := by
      refine List.suffix_of_suffix_length_le (List.suffix_append code' _) hright ?_
      simp only [List.length_append]
      omega
    have hne : endMark ++ rest' ≠ endMark ++ rest := by
      intro hsame
      rw [List.append_cancel_left hsame] at hlength
      omega
    exact absurd (hlast _ hsuffix hne) (by simp)
  · rintro ⟨⟨rest, rfl⟩, hlongest⟩
    refine Option.map_eq_some_iff.mpr ⟨(code, rest), upToLast_eq_some_iff.mpr ?_, rfl⟩
    refine ⟨endMark ++ rest, rfl, cut?_append _ _, fun y hy hne => ?_⟩
    rw [cut?_eq_none_iff]
    rintro ⟨rest', rfl⟩
    obtain ⟨z, hz⟩ := hy
    have hle := hlongest (code ++ z) rest' (by rw [List.append_assoc, hz])
    have hnil : z = [] := by
      rw [List.length_append] at hle
      exact List.length_eq_zero_iff.mp (by omega)
    rw [hnil, List.nil_append] at hz
    exact hne hz

theorem source?_eq_none_iff : source? s = none ↔ ∀ code rest, s ≠ code ++ (endMark ++ rest) := by
  rw [source?, Option.map_eq_none_iff, upToLast_eq_none_iff]
  constructor
  · rintro h code rest rfl
    exact absurd (h _ (List.suffix_append _ _)) (by simp)
  · rintro h y ⟨code, rfl⟩
    rw [cut?_eq_none_iff]
    rintro ⟨rest, rfl⟩
    exact h code rest rfl

/-! ### Blocks -/

/-- A way to cut a text into the parts of a block. -/
structure Reading (text : Text) where
  blanks : Text
  file : Text
  name : Text
  compileId : Text
  secondId : Text
  code : Text
  rest : Text
  text_eq : text = blanks ++ '(' :: (file ++ ':' :: (name ++ (pairOf compileId secondId ++
    (" ---\n".toList ++ (code ++ (endMark ++ rest))))))
  forall_blanks : ∀ c ∈ blanks, InlineReport.isBlank c
  not_mem_file : ':' ∉ file ∧ '\n' ∉ file
  not_mem_name : '\n' ∉ name
  isRun_compileId : IsRun compileId
  isRun_secondId : IsRun secondId

/-- The header of a reading, with the text below it. -/
def Reading.toHeader (r : Reading text) : Header where
  file := r.file
  name := r.name
  compileId := r.compileId
  secondId := r.secondId
  rest := r.code ++ (endMark ++ r.rest)

theorem Reading.header?_eq (r : Reading text) : header? text = some r.toHeader :=
  header?_eq_some_iff.mpr {
    split := ⟨r.blanks, r.forall_blanks, r.text_eq⟩
    file := r.not_mem_file
    name := r.not_mem_name
    compileId := r.isRun_compileId
    secondId := r.isRun_secondId }

/-- **All readings of a text have one header.** -/
theorem Reading.toHeader_eq (r r' : Reading text) : r.toHeader = r'.toHeader :=
  Option.some.inj (r.header?_eq.symm.trans r'.header?_eq)

/-- An end mark below a header makes a reading. -/
theorem exists_reading {code rest : Text} (hheader : header.Of text)
    (hrest : header.rest = code ++ (endMark ++ rest)) : ∃ r : Reading text, r.code = code := by
  obtain ⟨blanks, hblanks, htext⟩ := hheader.split
  rw [hrest] at htext
  exact ⟨{
    blanks, code, rest
    file := header.file
    name := header.name
    compileId := header.compileId
    secondId := header.secondId
    text_eq := htext
    forall_blanks := hblanks
    not_mem_file := hheader.file
    not_mem_name := hheader.name
    isRun_compileId := hheader.compileId
    isRun_secondId := hheader.secondId }, rfl⟩

/-- The source that is found in a text with a reading is that of the longest. -/
theorem Reading.exists_source? (r : Reading text) : ∃ code, source? r.toHeader.rest = some code ∧
    (∃ r' : Reading text, r'.code = code) ∧ ∀ r' : Reading text, r'.code.length ≤ code.length := by
  cases hcode : source? r.toHeader.rest with
  | none => exact absurd rfl (source?_eq_none_iff.mp hcode r.code r.rest)
  | some code =>
    obtain ⟨⟨rest, hrest⟩, hlongest⟩ := source?_eq_some_iff.mp hcode
    refine ⟨code, rfl, exists_reading (of_header? r.header?_eq) hrest, fun r' => ?_⟩
    exact hlongest r'.code r'.rest (by rw [r.toHeader_eq r']; rfl)

theorem block_eq_error_of_isEmpty (h : IsEmpty (Reading text)) :
    block text = .error (.trace (.malformed "function source" text)) := by
  cases hheader : header? text with
  | none => simp only [block, hheader]; rfl
  | some header =>
    cases hcode : source? header.rest with
    | none => simp only [block, hheader, hcode]; rfl
    | some code =>
      obtain ⟨⟨rest, hrest⟩, -⟩ := source?_eq_some_iff.mp hcode
      obtain ⟨r, -⟩ := exists_reading (of_header? hheader) hrest
      exact h.elim r

/-! ### Numbers -/

theorem readNumber_of_runIn {run : Text} (hshort : ¬ text.HasLongRun) (hrun : text.RunIn run) :
    readNumber run = .ok (Digit.value run) :=
  readNumber_of_length_le (not_lt.mp fun hlong => hshort ⟨run, hrun, hlong⟩)

theorem read_of_in {p : RawPlacement} (hshort : ¬ text.HasLongRun) (hp : p.In text) :
    p.read = .ok ⟨Digit.value p.copyId, Digit.value p.parentId, Digit.value p.offset⟩ := by
  simp only [RawPlacement.read, readNumber_of_runIn hshort hp.copyId,
    readNumber_of_runIn hshort hp.parentId, readNumber_of_runIn hshort hp.offset]
  rfl

theorem exists_placement (hshort : ¬ text.HasLongRun) : ∃ placement,
    ((upTo anywhere placement? text).map (·.2)).mapM RawPlacement.read = .ok placement := by
  cases hplace : upTo anywhere placement? text with
  | none => exact ⟨none, rfl⟩
  | some found =>
    obtain ⟨front, p⟩ := found
    obtain ⟨s, hs, hp⟩ := exists_of_upTo hplace
    rw [Option.map_some, Option.mapM_some, read_of_in hshort ((in_of_placement? hp).behind hs)]
    exact ⟨_, rfl⟩

/-- A block is built from the header and the longest source. -/
theorem Reading.exists_block (r : Reading text) (hshort : ¬ text.HasLongRun) : ∃ b,
    block text = .ok b ∧
    (b.file = String.ofList r.file ∧ b.name = String.ofList r.name ∧
      b.compileId = Digit.value r.compileId ∧ b.secondId = Digit.value r.secondId) ∧
    (∃ r' : Reading text, r'.code = b.code) ∧
    ∀ r' : Reading text, r'.code.length ≤ b.code.length := by
  obtain ⟨code, hcode, hlongest⟩ := r.exists_source?
  obtain ⟨placement, hplacement⟩ := exists_placement hshort
  obtain ⟨hcompile, hsecond⟩ := runIn_of_header? r.header?_eq
  have hblock : block text = .ok {
      file := String.ofList r.file
      name := String.ofList r.name
      compileId := Digit.value r.compileId
      secondId := Digit.value r.secondId
      code
      deopts := (readAll deopt? text).map String.ofList
      placement } := by
    simp only [block, r.header?_eq, hcode, hplacement, readNumber_of_runIn hshort hcompile,
      readNumber_of_runIn hshort hsecond]
    rfl
  exact ⟨_, hblock, ⟨rfl, rfl, rfl, rfl⟩, hlongest⟩

/-- **A text is scanned as a block where it can be read as one**, unless it has a long run of
digits. All readings have the same file, name and ids; the block has these, and the longest
source that a reading has. -/
theorem block_of_not_hasLongRun (hshort : ¬ text.HasLongRun) :
    ((∃ b, block text = .ok b) ↔ Nonempty (Reading text)) ∧
    (∀ r r' : Reading text, r.file = r'.file ∧ r.name = r'.name ∧ r.compileId = r'.compileId ∧
      r.secondId = r'.secondId) ∧
    (∀ b, block text = .ok b →
      (∀ r : Reading text, b.file = String.ofList r.file ∧ b.name = String.ofList r.name ∧
        b.compileId = Digit.value r.compileId ∧ b.secondId = Digit.value r.secondId) ∧
      (∃ r : Reading text, r.code = b.code) ∧
      ∀ r : Reading text, r.code.length ≤ b.code.length) ∧
    (IsEmpty (Reading text) →
      block text = .error (.trace (.malformed "function source" text))) := by
  have hreading : ∀ b, block text = .ok b → Nonempty (Reading text) := by
    intro b hb
    by_contra hnone
    rw [block_eq_error_of_isEmpty (not_nonempty_iff.mp hnone)] at hb
    cases hb
  refine ⟨⟨fun ⟨b, hb⟩ => hreading b hb, fun ⟨r⟩ => ?_⟩, fun r r' => ?_, fun b hb => ?_,
    block_eq_error_of_isEmpty⟩
  · obtain ⟨b, hb, -⟩ := r.exists_block hshort
    exact ⟨b, hb⟩
  · have hsame := r.toHeader_eq r'
    exact ⟨congrArg Header.file hsame, congrArg Header.name hsame, congrArg Header.compileId hsame,
      congrArg Header.secondId hsame⟩
  · obtain ⟨r⟩ := hreading b hb
    obtain ⟨b', hb', -, hlongest⟩ := r.exists_block hshort
    obtain rfl := Except.ok.inj (hb.symm.trans hb')
    refine ⟨fun r' => ?_, hlongest⟩
    obtain ⟨b', hb', hheader, -⟩ := r'.exists_block hshort
    obtain rfl := Except.ok.inj (hb.symm.trans hb')
    exact hheader

/-- A block with a name that looks like the end of a header, an id in digits of another script,
and a source with an end mark in it. -/
def oddBlock : Text := ("\n(a.js:f) id\x7b7,7\x7d ---:g) id\x7b1,\u0662\x7d ---\n" ++
  "x\n--- END ---\ny\n--- END ---\nz").toList

theorem block_oddBlock : ¬ oddBlock.HasLongRun ∧ ∃ b, block oddBlock = .ok b ∧
    b.file = "a.js" ∧ b.name = "f) id\x7b7,7\x7d ---:g" ∧ b.compileId = 1 ∧ b.secondId = 2 ∧
    "x\n--- END ---\ny".length ≤ b.code.length := by
  have hshort : ¬ oddBlock.HasLongRun := by
    rintro ⟨run, hrun, hlong⟩
    exact absurd (hlong.trans_le hrun.isInfix.length_le) (by decide)
  let r : Reading oddBlock := {
    blanks := ['\n']
    file := "a.js".toList
    name := "f) id\x7b7,7\x7d ---:g".toList
    compileId := ['1']
    secondId := ['\u0662']
    code := "x\n--- END ---\ny".toList
    rest := ['\n', 'z']
    text_eq := by decide
    forall_blanks := List.forall_mem_singleton.mpr (by decide)
    not_mem_file := by decide
    not_mem_name := by decide
    isRun_compileId := ⟨by decide, List.forall_mem_singleton.mpr (by decide)⟩
    isRun_secondId := ⟨by decide, List.forall_mem_singleton.mpr (by decide)⟩ }
  obtain ⟨hexists, -, hparts, -⟩ := block_of_not_hasLongRun hshort
  obtain ⟨b, hb⟩ := hexists.mpr ⟨r⟩
  obtain ⟨hheader, -, hlongest⟩ := hparts b hb
  obtain ⟨hfile, hname, hcompile, hsecond⟩ := hheader r
  exact ⟨hshort, b, hb, hfile.trans rfl, hname.trans rfl, hcompile.trans (by decide),
    hsecond.trans (by decide), hlongest r⟩

end SourceStream

end InlineReport
