import CoreTally.Text.Pieces

/-
  The words and the first line of a text, and what stands behind
  a separator for the last time. Blanks keep words apart, and a
  text has its words in one way only. What is left when the blanks
  at both ends of a text are dropped is known by its ends.

  Key definitions include:
    * `Text.Trimmed`
    * `Text.IsWord`
    * `Text.Words`
    * `Text.firstLine`

  Key theorems include:
    * `Text.trimmed_iff`
    * `Text.words_eq_iff`
    * `Text.afterLast?_eq_some_iff`
    * `Text.lines_cases`
-/

namespace CoreTally

namespace Text

------------------------------------------------------------
-- Trimming
------------------------------------------------------------

/-
  A value is what stands in a text between blanks, and it neither
  begins nor ends with one.
-/
structure Trimmed (text value : List Char) : Prop where
  framed :
    ∃ before after,
      (∀ c ∈ before, isBlank c = true) ∧
        (∀ c ∈ after, isBlank c = true) ∧
        text = before ++ (value ++ after)
  first : ∀ c ∈ value.head?, isBlank c = false
  last : ∀ c ∈ value.getLast?, isBlank c = false

theorem head?_dropWhile_isBlank
    (text : List Char) :
    ∀ c ∈ (text.dropWhile isBlank).head?, isBlank c = false := by
  intro c hHead
  have hFirst := List.head?_dropWhile_not isBlank text
  rwa [Option.mem_def.mp hHead] at hFirst

theorem exists_blanks_append
    (text : List Char) :
    ∃ blanks : List Char,
      (∀ c ∈ blanks, isBlank c = true) ∧
        text = blanks ++ text.dropWhile isBlank :=
  ⟨text.takeWhile isBlank, List.all_eq_true.mp List.all_takeWhile,
    List.takeWhile_append_dropWhile.symm⟩

theorem trimmed_trim
    (text : List Char) :
    Trimmed text (trim text) := by
  let rest := text.dropWhile isBlank
  rcases exists_blanks_append text with ⟨before, hBefore, hText⟩
  rcases exists_blanks_append rest.reverse with
    ⟨after, hAfter, hReverse⟩
  have hRest : rest = trim text ++ after.reverse := by
    have hSame := congrArg List.reverse hReverse
    rwa [List.reverse_reverse, List.reverse_append] at hSame
  refine ⟨⟨before, after.reverse, hBefore, by simpa using hAfter,
    hText.trans (congrArg (before ++ ·) hRest)⟩, ?_, ?_⟩
  · intro c hHead
    apply head?_dropWhile_isBlank text c
    change c ∈ rest.head?
    rw [hRest, List.head?_append, Option.mem_def.mp hHead]
    rfl
  · intro c hLast
    rw [trim, List.getLast?_reverse] at hLast
    exact head?_dropWhile_isBlank rest.reverse c hLast

theorem Trimmed.trim_eq
    {text value : List Char}
    (hTrimmed : Trimmed text value) :
    trim text = value := by
  rcases hTrimmed.framed with ⟨before, after, hBefore, hAfter, rfl⟩
  rw [trim, List.dropWhile_append_of_pos hBefore]
  cases value with
  | nil =>
      have hNone :=
        @List.dropWhile_append_of_pos _ isBlank after [] hAfter
      rw [List.append_nil, List.dropWhile_nil] at hNone
      rw [List.nil_append, hNone]
      rfl
  | cons c rest =>
      have hLast :
          ∀ d ∈ (c :: rest).reverse.head?, isBlank d = false := by
        rw [List.head?_reverse]
        exact hTrimmed.last
      have hFirst :
          (c :: rest ++ after).dropWhile isBlank =
            c :: rest ++ after :=
        dropWhile_isBlank_eq_self hTrimmed.first
      rw [hFirst, List.reverse_append,
        List.dropWhile_append_of_pos (by simpa using hAfter),
        dropWhile_isBlank_eq_self hLast, List.reverse_reverse]

/- A text is trimmed in one way only. -/
theorem trimmed_iff
    (text value : List Char) :
    Trimmed text value ↔ trim text = value := by
  constructor
  · exact Trimmed.trim_eq
  · rintro rfl
    exact trimmed_trim text

/- What is trimmed has nothing more to lose. -/
theorem Trimmed.self
    {text value : List Char}
    (hTrimmed : Trimmed text value) :
    Trimmed value value :=
  ⟨⟨[], [], by simp, by simp, by simp⟩, hTrimmed.first,
    hTrimmed.last⟩

------------------------------------------------------------
-- Words
------------------------------------------------------------

/- A word has characters, and none of them is blank. -/
structure IsWord (text : List Char) : Prop where
  present : text ≠ []
  solid : ∀ c ∈ text, isBlank c = false

theorem IsWord.notMem
    {c : Char}
    (hBlank : isBlank c = true)
    {word : List Char}
    (hWord : IsWord word) :
    c ∉ word := by
  intro hMem
  rw [hWord.solid c hMem] at hBlank
  contradiction

/- A text that no word in front of it goes on with. -/
def EndsWord (text : List Char) : Prop :=
  ∀ c ∈ text.head?, isBlank c = true

/- A text of words has blanks between them and at will around. -/
inductive Words : List Char → List (List Char) → Prop
| blank
    {text : List Char}
    (hBlank : ∀ c ∈ text, isBlank c = true) :
    Words text []
| word
    {blanks word rest : List Char}
    {items : List (List Char)}
    (hBlanks : ∀ c ∈ blanks, isBlank c = true)
    (hWord : IsWord word)
    (hEnds : EndsWord rest)
    (hRest : Words rest items) :
    Words (blanks ++ (word ++ rest)) (word :: items)

/- A blank parts the words in front of it from those behind it. -/
theorem words_append_cons
    {c : Char}
    (hBlank : isBlank c = true)
    (before after : List Char) :
    words (before ++ c :: after) = words before ++ words after := by
  simp only [words, cut_eq_splitOnP]
  rw [List.splitOnP_append_cons before after hBlank,
    List.filter_append]

theorem words_cons
    {c : Char}
    (hBlank : isBlank c = true)
    (text : List Char) :
    words (c :: text) = words text :=
  words_append_cons hBlank [] text

/- Blanks in front of a text add no words. -/
theorem words_append_of_blank
    {blanks : List Char}
    (hBlanks : ∀ c ∈ blanks, isBlank c = true)
    (text : List Char) :
    words (blanks ++ text) = words text := by
  induction blanks with
  | nil => rfl
  | cons c blanks ih =>
      rcases List.forall_mem_cons.mp hBlanks with ⟨hFirst, hRest⟩
      rw [List.cons_append, words_cons hFirst, ih hRest]

/- A word is cut off at the blank behind it. -/
theorem IsWord.words_append
    {word rest : List Char}
    (hWord : IsWord word)
    (hEnds : EndsWord rest) :
    words (word ++ rest) = word :: words rest := by
  have hAlone : words word = [word] := by
    rw [words, cut_eq_splitOnP,
      List.splitOnP_eq_singleton hWord.solid]
    simp [hWord.present]
  cases rest with
  | nil =>
      rw [List.append_nil, hAlone]
      rfl
  | cons c rest =>
      have hBlank : isBlank c = true := hEnds c rfl
      rw [words_append_cons hBlank, words_cons hBlank, hAlone]
      rfl

theorem Words.words_eq
    {text : List Char}
    {items : List (List Char)}
    (hWords : Words text items) :
    words text = items := by
  induction hWords with
  | blank hBlank =>
      have hNone := words_append_of_blank hBlank []
      rwa [List.append_nil] at hNone
  | word hBlanks hWord hEnds hRest ih =>
      rw [words_append_of_blank hBlanks, hWord.words_append hEnds, ih]

theorem Words.cons_blank
    {c : Char}
    (hBlank : isBlank c = true)
    {text : List Char}
    {items : List (List Char)}
    (hWords : Words text items) :
    Words (c :: text) items := by
  cases hWords with
  | blank hText =>
      exact .blank (List.forall_mem_cons.mpr ⟨hBlank, hText⟩)
  | @word blanks _ _ _ hBlanks hWord hEnds hRest =>
      have hLonger : ∀ d ∈ c :: blanks, isBlank d = true :=
        List.forall_mem_cons.mpr ⟨hBlank, hBlanks⟩
      exact .word hLonger hWord hEnds hRest

/- A word of one character, or one more in front of a word. -/
theorem Words.cons_solid
    {c : Char}
    (hSolid : isBlank c = false)
    {text : List Char}
    {items : List (List Char)}
    (hWords : Words text items) :
    ∃ items', Words (c :: text) items' := by
  have hAlone : IsWord [c] := ⟨by simp, by simpa using hSolid⟩
  have hNone : ∀ d ∈ ([] : List Char), isBlank d = true := by simp
  cases text with
  | nil =>
      have hEnds : EndsWord [] := by simp [EndsWord]
      exact ⟨[[c]], .word hNone hAlone hEnds (.blank hNone)⟩
  | cons d text =>
      by_cases hNext : isBlank d = true
      · have hEnds : EndsWord (d :: text) := by
          simpa [EndsWord] using hNext
        exact ⟨[c] :: items, .word hNone hAlone hEnds hWords⟩
      · generalize hText : d :: text = whole at hWords
        cases hWords with
        | blank hBlank =>
            exact absurd (hBlank d (by simp [← hText])) hNext
        | @word blanks word rest items hBlanks hWord hEnds hRest =>
            cases blanks with
            | cons e blanks =>
                have hSame : d = e := (List.cons.inj hText).1
                exact absurd (hBlanks d (by simp [hSame])) hNext
            | nil =>
                have hLonger : IsWord (c :: word) :=
                  ⟨by simp, List.forall_mem_cons.mpr
                    ⟨hSolid, hWord.solid⟩⟩
                exact ⟨(c :: word) :: items,
                  .word hNone hLonger hEnds hRest⟩

/- Every text is one of words. -/
theorem exists_words
    (text : List Char) :
    ∃ items, Words text items := by
  induction text with
  | nil => exact ⟨[], .blank (by simp)⟩
  | cons c text ih =>
      rcases ih with ⟨items, hWords⟩
      cases hChar : isBlank c with
      | true => exact ⟨items, hWords.cons_blank hChar⟩
      | false => exact hWords.cons_solid hChar

/- The words that are cut out of a text are those it is made of. -/
theorem words_eq_iff
    (text : List Char)
    (items : List (List Char)) :
    words text = items ↔ Words text items := by
  constructor
  · rintro rfl
    rcases exists_words text with ⟨items, hWords⟩
    rwa [hWords.words_eq]
  · exact Words.words_eq

/- Words with a space in front of each are the words of a text. -/
theorem words_spaced
    {items : List (List Char)}
    (hItems : ∀ item ∈ items, IsWord item)
    {rest : List Char}
    (hEnds : EndsWord rest) :
    words (items.flatMap (' ' :: ·) ++ rest) =
      items ++ words rest := by
  induction items with
  | nil => rfl
  | cons item items ih =>
      rcases List.forall_mem_cons.mp hItems with ⟨hItem, hLater⟩
      have hNext :
          EndsWord (items.flatMap (' ' :: ·) ++ rest) := by
        cases items with
        | nil => exact hEnds
        | cons next items => simp [EndsWord, isBlank]
      rw [List.flatMap_cons, List.append_assoc, List.cons_append,
        words_cons rfl, hItem.words_append hNext, ih hLater]
      rfl

------------------------------------------------------------
-- Last Separators
------------------------------------------------------------

theorem afterLast?_eq_none_iff
    (separator : Char)
    (text : List Char) :
    afterLast? separator text = none ↔ separator ∉ text := by
  induction text with
  | nil => simp [afterLast?]
  | cons c text ih =>
      rw [afterLast?, List.mem_cons, not_or, ← ih]
      cases afterLast? separator text with
      | none => simp [eq_comm]
      | some after => simp

theorem afterLast?_append_cons
    {separator : Char}
    {after : List Char}
    (hAfter : separator ∉ after)
    (before : List Char) :
    afterLast? separator (before ++ separator :: after) =
      some after := by
  induction before with
  | nil =>
      rw [List.nil_append, afterLast?,
        (afterLast?_eq_none_iff separator after).mpr hAfter]
      exact if_pos rfl
  | cons c before ih => rw [List.cons_append, afterLast?, ih]

/- Behind the last separator there is none any more. -/
theorem afterLast?_eq_some_iff
    (separator : Char)
    (text after : List Char) :
    afterLast? separator text = some after ↔
      separator ∉ after ∧
        ∃ before, text = before ++ separator :: after := by
  constructor
  · intro hLast
    induction text with
    | nil => contradiction
    | cons c text ih =>
        rw [afterLast?] at hLast
        split at hLast
        · rename_i later hLater
          cases hLast
          rcases ih hLater with ⟨hAfter, before, rfl⟩
          exact ⟨hAfter, c :: before, rfl⟩
        · rename_i hNone
          split at hLast
          · rename_i hHere
            cases hLast
            exact ⟨(afterLast?_eq_none_iff _ _).mp hNone, [],
              by rw [hHere]; rfl⟩
          · contradiction
  · rintro ⟨hAfter, before, rfl⟩
    exact afterLast?_append_cons hAfter before

------------------------------------------------------------
-- First Lines
------------------------------------------------------------

/- The text up to the first line feed. -/
def firstLine (text : List Char) : List Char :=
  text.takeWhile (· != '\n')

theorem firstLine_append
    {front : List Char}
    (hFront : '\n' ∉ front)
    (rest : List Char) :
    firstLine (front ++ rest) = front ++ firstLine rest := by
  apply List.takeWhile_append_of_pos
  intro c hChar
  simpa using ne_of_mem_of_not_mem hChar hFront

theorem firstLine_of_notMem
    {line : List Char}
    (hLine : '\n' ∉ line) :
    firstLine line = line := by
  have hWhole := firstLine_append hLine []
  have hNone : firstLine [] = [] := rfl
  rwa [hNone, List.append_nil] at hWhole

theorem firstLine_append_cons
    {line : List Char}
    (hLine : '\n' ∉ line)
    (rest : List Char) :
    firstLine (line ++ '\n' :: rest) = line := by
  rw [firstLine_append hLine, firstLine,
    List.takeWhile_cons_of_neg (by simp), List.append_nil]

theorem cut_of_notMem
    {line : List Char}
    (hLine : '\n' ∉ line) :
    cut (· == '\n') line = [line] := by
  rw [cut_eq_splitOnP]
  apply List.splitOnP_eq_singleton
  intro c hChar
  simpa using ne_of_mem_of_not_mem hChar hLine

/-
  The lines of a text begin with its first line, from which a
  carriage return at the end may have been dropped. A text without
  lines is empty up to its first line feed, too.
-/
theorem lines_cases
    (text : List Char) :
    (lines text = [] ∧ firstLine text = []) ∨
      ∃ line later,
        lines text = line :: later ∧
          (firstLine text = line ∨ firstLine text = line ++ ['\r']) := by
  cases hCut : cutOnce? '\n' text with
  | none =>
      have hLine := (cutOnce?_eq_none_iff _ _).mp hCut
      rw [firstLine_of_notMem hLine, lines, cut_of_notMem hLine]
      cases text with
      | nil => exact .inl ⟨rfl, rfl⟩
      | cons c text => exact .inr ⟨c :: text, [], rfl, .inl rfl⟩
  | some pair =>
      rcases pair with ⟨line, rest⟩
      rcases (cutOnce?_eq_some_iff _ _ _ _).mp hCut with ⟨hLine, rfl⟩
      have hPieces :
          cut (· == '\n') (line ++ '\n' :: rest) =
            line :: cut (· == '\n') rest := by
        have hFirst := cut_of_notMem hLine
        rw [cut_eq_splitOnP] at hFirst
        rw [cut_eq_splitOnP, cut_eq_splitOnP,
          List.splitOnP_append_cons line rest (by simp), hFirst]
        rfl
      have hSome : cut (· == '\n') rest ≠ [] := by
        rw [cut_eq_splitOnP]
        exact List.splitOnP_ne_nil _ _
      have hLines :
          ∃ later,
            lines (line ++ '\n' :: rest) =
              dropReturn line :: later := by
        rw [lines, hPieces, List.dropLast_cons_of_ne_nil hSome]
        simp only [List.map_cons]
        split
        · exact ⟨_, rfl⟩
        · exact ⟨_, rfl⟩
        · exact ⟨_, rfl⟩
      rcases hLines with ⟨later, hLines⟩
      refine .inr ⟨dropReturn line, later, hLines, ?_⟩
      rw [firstLine_append_cons hLine, dropReturn]
      split
      · rename_i hReturn
        rcases List.getLast?_eq_some_iff.mp hReturn with ⟨init, rfl⟩
        rw [List.dropLast_concat]
        exact .inr rfl
      · exact .inl rfl

end Text

end CoreTally
