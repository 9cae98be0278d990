import InlineReport.Proofs.Text.Reading
import InlineReport.Proofs.Text.Slice
import InlineReport.View.Token

/-!
# Where a marked part ends

**Of the tokens that begin at an offset the longest is marked** (`findEnd_eq_longest`), as far as
it is seen in the window. What the tokens are is said without a way to find them (`Token.IsToken`):
a word, with `new ` or a run of operator characters in front of it.

A reader looks for them without going back: it takes as many operator characters as there are,
then as many word characters, then a bracket. That this misses nothing longer rests on the classes
of characters. An operator character is no word character and neither is a bracket, so each part
ends where it ends in every token. Only the text `new ` can be read in two ways, in front of a word
or as the word `new`, and the first way always takes more (`Token.takesLongest_length?`).

What is marked is never empty: a token has a word in it, and where no token begins a span of fixed
length is marked (`lt_findEnd`).
-/

namespace InlineReport

namespace Token

variable {s t front word rest : Text} {n : Nat} {c : Char}

/-! ### Tokens -/

/-- **The words**: word characters, with a closing bracket behind them or without. -/
inductive IsWord : Text → Prop
  | bare {word : Text} : word ≠ [] → (∀ c ∈ word, isAsciiWord c = true) → IsWord word
  | closed {word : Text} : word ≠ [] → (∀ c ∈ word, isAsciiWord c = true) → IsWord (word ++ [']'])

/-- **The tokens**: a word with `new ` in front of it, or with a run of operator characters, which
may be empty. -/
inductive IsToken : Text → Prop
  | new {word : Text} : IsWord word → IsToken ("new ".toList ++ word)
  | operators {front word : Text} :
    (∀ c ∈ front, isOperator c = true) → IsWord word → IsToken (front ++ word)

theorem isOperator_eq_false (h : isAsciiWord c = true) : isOperator c = false := by
  have hword : ".=[ !&<>^%+-|".toList.all (!isAsciiWord ·) = true := by decide
  rw [isOperator, List.contains_eq_mem, decide_eq_false_iff_not]
  intro hmem
  have hc := List.all_eq_true.mp hword c hmem
  rw [h] at hc
  cases hc

/-- A word begins with a word character. -/
theorem IsWord.exists_cons (h : IsWord word) : ∃ c s, word = c :: s ∧ isAsciiWord c = true := by
  cases h with
  | bare hne hword =>
    obtain ⟨c, s, rfl⟩ := List.exists_cons_of_ne_nil hne
    exact ⟨c, s, rfl, hword c List.mem_cons_self⟩
  | closed hne hword =>
    obtain ⟨c, s, rfl⟩ := List.exists_cons_of_ne_nil hne
    exact ⟨c, s ++ [']'], rfl, hword c List.mem_cons_self⟩

theorem IsToken.length_pos (h : IsToken t) : 0 < t.length := by
  cases h with
  | new hword =>
    rw [List.length_append]
    exact Nat.add_pos_left (by decide) _
  | operators _ hword =>
    obtain ⟨c, s, rfl, -⟩ := hword.exists_cons
    rw [List.length_append]
    exact Nat.add_pos_right _ (Nat.succ_pos _)

/-! ### Readers that take the longest -/

/-- **The longest beginning of a text** that is in a language. -/
structure IsLongest (language : Text → Prop) (s t : Text) : Prop where
  begins : t <+: s
  mem : language t
  length_le {t' : Text} : t' <+: s → language t' → t'.length ≤ t.length

/-- **A reader of lengths takes the longest**: what it takes is in the language, and where a text
of the language stands it takes no less. -/
structure TakesLongest (language : Text → Prop) (length? : Text → Option Nat) : Prop where
  sound {s : Text} {n : Nat} :
    length? s = some n → ∃ t rest, s = t ++ rest ∧ language t ∧ t.length = n
  complete {t : Text} : language t → ∀ rest, ∃ n, length? (t ++ rest) = some n ∧ t.length ≤ n

namespace TakesLongest

variable {language : Text → Prop} {length? : Text → Option Nat}

theorem exists_isLongest (h : TakesLongest language length?) (hn : length? s = some n) :
    ∃ t, IsLongest language s t ∧ t.length = n := by
  obtain ⟨t, rest, hs, hmem, hlength⟩ := h.sound hn
  refine ⟨t, ⟨⟨rest, hs.symm⟩, hmem, ?_⟩, hlength⟩
  rintro t' ⟨rest', rfl⟩ ht'
  obtain ⟨m, hm, hle⟩ := h.complete ht' rest'
  rw [hn, Option.some.injEq] at hm
  omega

theorem not_mem_of_eq_none (h : TakesLongest language length?) (hnone : length? s = none)
    (ht : t <+: s) : ¬ language t := by
  obtain ⟨rest, rfl⟩ := ht
  intro hmem
  obtain ⟨n, hn, -⟩ := h.complete hmem rest
  rw [hnone] at hn
  cases hn

end TakesLongest

/-! ### The reader of tokens -/

theorem wordLength?_eq (s : Text) : wordLength? s =
    if s.takeWhile isAsciiWord = [] then none
    else some ((s.takeWhile isAsciiWord).length +
      if (s.dropWhile isAsciiWord).head? = some ']' then 1 else 0) := by
  simp only [wordLength?, Text.drop_length_takeWhile, List.isEmpty_iff]

theorem operatorLength?_eq (s : Text) : operatorLength? s =
    (wordLength? (s.dropWhile isOperator)).map ((s.takeWhile isOperator).length + ·) := by
  simp only [operatorLength?, Text.drop_length_takeWhile]

theorem newLength?_append (rest : Text) :
    newLength? ("new ".toList ++ rest) = (wordLength? rest).map (4 + ·) := by
  rw [newLength?, Text.cut?_append, Option.bind_some]

/-- Operator characters are taken up to the first character of a word. -/
theorem operatorLength?_append (hfront : ∀ c ∈ front, isOperator c = true)
    (hword : IsWord word) (rest : Text) : operatorLength? (front ++ word ++ rest) =
      (wordLength? (word ++ rest)).map (front.length + ·) := by
  obtain ⟨c, s, rfl, hc⟩ := hword.exists_cons
  have hstop := isOperator_eq_false hc
  rw [operatorLength?_eq, List.append_assoc, List.cons_append,
    Text.takeWhile_append_cons hfront hstop, Text.dropWhile_append_cons hfront hstop]

/-- Without `new ` in front of a word there is the word `new`. -/
theorem operatorLength?_new (rest : Text) : operatorLength? ("new ".toList ++ rest) = some 3 := rfl

theorem takesLongest_wordLength? : TakesLongest IsWord wordLength? where
  sound {s n} h := by
    have hs : s.takeWhile isAsciiWord ++ s.dropWhile isAsciiWord = s :=
      List.takeWhile_append_dropWhile
    have hword := List.all_eq_true.mp (List.all_takeWhile (l := s) (p := isAsciiWord))
    rw [wordLength?_eq] at h
    split at h
    next => cases h
    next hne =>
      obtain rfl := Option.some.inj h
      split
      next hclosed =>
        obtain ⟨rest, hrest⟩ := List.head?_eq_some_iff.mp hclosed
        refine ⟨_, rest, ?_, .closed hne hword, by simp⟩
        rw [List.append_assoc, List.singleton_append, ← hrest, hs]
      next => exact ⟨_, _, hs.symm, .bare hne hword, rfl⟩
  complete {t} ht rest := by
    cases ht with
    | bare hne hword =>
      have htake : (t ++ rest).takeWhile isAsciiWord = t ++ rest.takeWhile isAsciiWord :=
        List.takeWhile_append_of_pos hword
      rw [wordLength?_eq, htake, if_neg (by simp [hne])]
      exact ⟨_, rfl, by rw [List.length_append]; omega⟩
    | @closed word hne hword =>
      -- the bracket is no word character, so the run ends in front of it
      have hbracket : isAsciiWord ']' = false := rfl
      rw [wordLength?_eq, List.append_assoc, List.singleton_append,
        Text.takeWhile_append_cons hword hbracket, Text.dropWhile_append_cons hword hbracket,
        if_neg hne]
      exact ⟨_, rfl, by simp⟩

/-- **The reader takes the longest token.** -/
theorem takesLongest_length? : TakesLongest IsToken length? where
  sound {s n} h := by
    rcases Option.or_eq_some_iff.mp h with h | ⟨-, h⟩
    · obtain ⟨behind, hbehind, h⟩ := Option.bind_eq_some_iff.mp h
      obtain ⟨m, hm, rfl⟩ := Option.map_eq_some_iff.mp h
      obtain rfl := Text.cut?_eq_some_iff.mp hbehind
      obtain ⟨word, rest, rfl, hword, rfl⟩ := takesLongest_wordLength?.sound hm
      exact ⟨_, rest, (List.append_assoc _ _ _).symm, .new hword, List.length_append⟩
    · rw [operatorLength?_eq] at h
      obtain ⟨m, hm, rfl⟩ := Option.map_eq_some_iff.mp h
      obtain ⟨word, rest, hrest, hword, rfl⟩ := takesLongest_wordLength?.sound hm
      have hfront := List.all_eq_true.mp (List.all_takeWhile (l := s) (p := isOperator))
      refine ⟨_, rest, ?_, .operators hfront hword, List.length_append⟩
      rw [List.append_assoc, ← hrest, List.takeWhile_append_dropWhile]
  complete ht rest := by
    cases ht with
    | @new word hword =>
      obtain ⟨n, hn, hle⟩ := takesLongest_wordLength?.complete hword rest
      refine ⟨4 + n, ?_, ?_⟩
      · rw [length?, List.append_assoc, newLength?_append, hn]
        rfl
      · rw [List.length_append]
        exact Nat.add_le_add_left hle 4
    | @operators front word hfront hword =>
      obtain ⟨n, hn, hle⟩ := takesLongest_wordLength?.complete hword rest
      have hoperators : operatorLength? (front ++ word ++ rest) = some (front.length + n) := by
        rw [operatorLength?_append hfront hword, hn]
        rfl
      rw [List.length_append]
      cases hnew : newLength? (front ++ word ++ rest) with
      | none => exact ⟨front.length + n, by rw [length?, hnew, hoperators]; rfl, by omega⟩
      | some m =>
        -- the text begins with `new `, so the token is no longer than the word `new`
        obtain ⟨behind, hbehind, h⟩ := Option.bind_eq_some_iff.mp hnew
        obtain ⟨k, -, rfl⟩ := Option.map_eq_some_iff.mp h
        rw [Text.cut?_eq_some_iff.mp hbehind, operatorLength?_new, Option.some.injEq] at hoperators
        exact ⟨4 + k, by rw [length?, hnew]; rfl, by omega⟩

theorem length?_pos (h : length? s = some n) : 0 < n := by
  obtain ⟨t, rest, -, ht, rfl⟩ := takesLongest_length?.sound h
  exact ht.length_pos

end Token

/-! ### What is marked -/

/-- **What is marked is not empty.** -/
theorem lt_findEnd (code : Text) (start : Int) : start < findEnd code start := by
  unfold findEnd
  split
  · next n h =>
    have := Token.length?_pos h
    omega
  · have : Token.fallback = 5 := rfl
    omega

/-- The window for an offset that counts from the beginning. -/
theorem findEnd_natCast (code : Text) (start : Nat) : findEnd code start =
    start + ((Token.length? ((code.drop start).take 100)).getD 5 : Nat) := by
  have hwindow : Text.slice start (start + Token.window) code = (code.drop start).take 100 := by
    rw [Text.slice_eq_take_drop (by omega) (by omega)]
    congr 1
    have : Token.window = 100 := rfl
    omega
  rw [findEnd, hwindow]
  cases Token.length? ((code.drop start).take 100) <;> rfl

/-- **The longest token is marked** of those that begin at an offset and are seen in the hundred
characters from there on. Where none begins, five characters are marked. -/
theorem findEnd_eq_longest (code : Text) (start : Nat) :
    ((∃ token, Token.IsLongest Token.IsToken ((code.drop start).take 100) token ∧
        findEnd code start = start + token.length) ∨
      (∀ t, t <+: (code.drop start).take 100 → ¬ Token.IsToken t) ∧
        findEnd code start = start + 5) ∧
    start < findEnd code start ∧ findEnd code start ≤ start + 100 := by
  have hlt := lt_findEnd code start
  have hfinds := findEnd_natCast code start
  cases hlength : Token.length? ((code.drop start).take 100) with
  | some n =>
    obtain ⟨token, htoken, rfl⟩ := Token.takesLongest_length?.exists_isLongest hlength
    rw [hlength, Option.getD_some] at hfinds
    have hle : token.length ≤ 100 :=
      Nat.le_trans htoken.begins.length_le (List.length_take_le 100 _)
    exact ⟨.inl ⟨token, htoken, hfinds⟩, hlt, by omega⟩
  | none =>
    rw [hlength, Option.getD_none] at hfinds
    have hnone (t : Text) := Token.takesLongest_length?.not_mem_of_eq_none (t := t) hlength
    exact ⟨.inr ⟨hnone, hfinds⟩, hlt, by omega⟩

/-- The text `new ` in front of a word, and where none follows. -/
example : findEnd "new Foo()".toList 0 = 7 ∧ findEnd "new ()".toList 0 = 3 := by decide

end InlineReport
