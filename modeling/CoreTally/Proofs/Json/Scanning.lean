import CoreTally.Json.Printer
import CoreTally.Json.Token
import CoreTally.Proofs.Numerals

/-
  How the pieces of a printed JSON text are cut into tokens
  again. A piece is followed by the rest of the text, and only
  a number depends on it: the rest must not go on with it.

  Key definitions include:
    * `Json.Scans`
    * `Json.Token.mark?`
    * `Json.Stops`

  Key theorems include:
    * `Json.escape_cases`
    * `Json.scans_mark`
    * `Json.scans_quote`
    * `Json.scans_number`
-/

namespace CoreTally.Json

------------------------------------------------------------
-- Pieces of a Text
------------------------------------------------------------

/- In front of a rest, a piece of text is cut into some tokens. -/
def Scans
    (piece : List Char)
    (tokens : List Token)
    (rest : List Char) : Prop :=
  Token.scan? (piece ++ rest) =
    (Token.scan? rest).map (tokens ++ ·)

theorem scans_nil
    (rest : List Char) :
    Scans [] [] rest := by
  simp [Scans]

/- Pieces are cut one after another. -/
theorem Scans.append
    {first second : List Char}
    {tokens more : List Token}
    {rest : List Char}
    (hFirst : Scans first tokens (second ++ rest))
    (hSecond : Scans second more rest) :
    Scans (first ++ second) (tokens ++ more) rest := by
  unfold Scans at *
  rw [List.append_assoc, hFirst, hSecond, Option.map_map]
  simp [Function.comp_def]

/- The first token of a piece leaves the others to be cut. -/
theorem scans_of_next?
    {c : Char}
    {piece rest : List Char}
    {token : Token}
    (hSpace : isSpace c = false)
    (hNext :
      Token.next? (c :: piece ++ rest) = some (token, rest)) :
    Scans (c :: piece) [token] rest := by
  unfold Scans
  rw [List.cons_append] at hNext ⊢
  rw [Token.scan?, if_neg (by simp [hSpace])]
  split
  · rename_i hNone
    rw [hNext] at hNone
    contradiction
  · rename_i hSome
    rw [hNext] at hSome
    cases hSome
    rfl

theorem scans_space
    {c : Char}
    (hSpace : isSpace c = true)
    (rest : List Char) :
    Scans [c] [] rest := by
  unfold Scans
  rw [List.singleton_append, Token.scan?, if_pos hSpace]
  simp

/- Blanks are not part of any token. -/
theorem scans_spaces
    {blanks : List Char}
    (hSpaces : ∀ c ∈ blanks, isSpace c = true)
    (rest : List Char) :
    Scans blanks [] rest := by
  induction blanks with
  | nil => exact scans_nil rest
  | cons c blanks ih =>
      have hFirst := scans_space (hSpaces c (by simp))
        (blanks ++ rest)
      exact hFirst.append
        (ih fun other hOther => hSpaces other (by simp [hOther]))

------------------------------------------------------------
-- Marks and Words
------------------------------------------------------------

/- The character of a token that is no more than a mark. -/
def Token.mark? : Token → Option Char
| .openArray => some '['
| .closeArray => some ']'
| .openObject => some '\x7b'
| .closeObject => some '\x7d'
| .colon => some ':'
| .comma => some ','
| _ => none

/- A mark is a token wherever it stands. -/
theorem scans_mark
    {token : Token}
    {c : Char}
    (hMark : token.mark? = some c)
    (rest : List Char) :
    Scans [c] [token] rest := by
  cases token with
  | null => contradiction
  | bool value => contradiction
  | number n => contradiction
  | string text => contradiction
  | _ =>
      cases hMark
      exact scans_of_next? rfl rfl

theorem scans_null
    (rest : List Char) :
    Scans "null".toList [.null] rest :=
  scans_of_next? rfl rfl

theorem scans_bool
    (value : Bool)
    (rest : List Char) :
    Scans (if value then "true" else "false").toList
      [.bool value] rest := by
  cases value
  · exact scans_of_next? rfl rfl
  · exact scans_of_next? rfl rfl

------------------------------------------------------------
-- Strings
------------------------------------------------------------

/- A control character is read from its hexadecimal digits. -/
theorem natural?_hexDigits
    {code : Nat}
    (hControl : code < 0x20) :
    Text.natural? 16
        ['0', '0', hexDigit (code / 16), hexDigit code] =
      some code := by
  have hAll :
      ∀ code < 0x20,
        Text.natural? 16
            ['0', '0', hexDigit (code / 16), hexDigit code] =
          some code := by
    decide
  exact hAll code hControl

/- A unit is read before the ones that follow. -/
def prepend
    (c : Char)
    (found : Option (List CodeUnit × List Char)) :
    Option (List CodeUnit × List Char) :=
  found.map fun units => (.char c :: units.1, units.2)

theorem stringUnits?_short
    {letter c : Char}
    (hLetter : escaped? letter = some c)
    (rest : List Char) :
    stringUnits? ('\\' :: letter :: rest) =
      prepend c (stringUnits? rest) := by
  have hNot : letter ≠ 'u' := by
    rintro rfl
    contradiction
  rw [stringUnits?]
  · rw [hLetter]
    cases stringUnits? rest <;> rfl
  · intro _ _ _ _ _ hUnicode
    exact absurd hUnicode hNot

theorem stringUnits?_control
    {c : Char}
    (hControl : c.toNat < 0x20)
    (rest : List Char) :
    stringUnits?
        ('\\' :: 'u' :: '0' :: '0' :: hexDigit (c.toNat / 16) ::
          hexDigit c.toNat :: rest) =
      prepend c (stringUnits? rest) := by
  have hUnit : CodeUnit.ofCode c.toNat = .char c := by
    have hHalf :
        ¬ (CodeUnit.isHigh c.toNat || CodeUnit.isLow c.toNat) =
          true := by
      simp only [CodeUnit.isHigh, CodeUnit.isLow, Bool.or_eq_true,
        Bool.and_eq_true, decide_eq_true_eq]
      omega
    rw [CodeUnit.ofCode, if_neg hHalf, Char.ofNat_toNat]
  rw [stringUnits?, natural?_hexDigits hControl]
  cases stringUnits? rest with
  | none => rfl
  | some found =>
      simp only [hUnit]
      rfl

theorem stringUnits?_plain
    {c : Char}
    (hQuote : c ≠ '"')
    (hBackslash : c ≠ '\\')
    (hControl : ¬ c.toNat < 0x20)
    (rest : List Char) :
    stringUnits? (c :: rest) =
      prepend c (stringUnits? rest) := by
  rw [stringUnits?]
  · rw [if_neg hControl]
    cases stringUnits? rest <;> rfl
  · exact hQuote
  · exact fun _ _ _ _ _ hSame => absurd hSame hBackslash
  · exact fun _ _ hSame => absurd hSame hBackslash

/-
  A character is escaped by a letter, or by its code if it is
  another control character, or it is not escaped at all.
-/
theorem escape_cases
    (c : Char) :
    (∃ letter,
        escape c = ['\\', letter] ∧ escaped? letter = some c) ∨
      (c.toNat < 0x20 ∧
        escape c =
          ['\\', 'u', '0', '0', hexDigit (c.toNat / 16),
            hexDigit c.toNat]) ∨
      (c ≠ '"' ∧ c ≠ '\\' ∧ ¬ c.toNat < 0x20 ∧
        escape c = [c]) := by
  unfold escape
  iterate 7
    split
    · subst_vars
      exact .inl ⟨_, rfl, rfl⟩
  split
  · exact .inr (.inl ⟨‹_›, rfl⟩)
  · refine .inr (.inr ⟨?_, ?_, ?_, rfl⟩)
    all_goals assumption

/- The escaped form of a character is read as that character. -/
theorem stringUnits?_escape
    (c : Char)
    (rest : List Char) :
    stringUnits? (escape c ++ rest) =
      prepend c (stringUnits? rest) := by
  rcases escape_cases c with
    ⟨letter, hEscape, hLetter⟩ | ⟨hControl, hEscape⟩ |
    ⟨hQuote, hBackslash, hControl, hEscape⟩
  · rw [hEscape]
    exact stringUnits?_short hLetter rest
  · rw [hEscape]
    exact stringUnits?_control hControl rest
  · rw [hEscape]
    exact stringUnits?_plain hQuote hBackslash hControl rest

/- A text between quotes is read up to its closing quote. -/
theorem stringUnits?_flatMap_escape
    (text rest : List Char) :
    stringUnits? (text.flatMap escape ++ '"' :: rest) =
      some (text.map CodeUnit.char, rest) := by
  induction text with
  | nil => rfl
  | cons c text ih =>
      rw [List.flatMap_cons, List.append_assoc,
        stringUnits?_escape, ih]
      rfl

theorem text?_map_char
    (text : List Char) :
    CodeUnit.text? (text.map CodeUnit.char) = some text := by
  induction text with
  | nil => rfl
  | cons c text ih =>
      rw [List.map_cons, CodeUnit.text?, ih]
      rfl

theorem toList_quote
    (text : String) :
    (quote text).toList =
      '"' :: (text.toList.flatMap escape ++ ['"']) := by
  rw [quote, String.toList_ofList]
  rfl

/- What is quoted is read as one string. -/
theorem scans_quote
    (text : String)
    (rest : List Char) :
    Scans (quote text).toList [.string (some text)] rest := by
  have hUnits :
      stringUnits? ((text.toList.flatMap escape ++ ['"']) ++ rest) =
        some (text.toList.map CodeUnit.char, rest) := by
    rw [List.append_assoc]
    exact stringUnits?_flatMap_escape text.toList rest
  rw [toList_quote]
  apply scans_of_next? rfl
  rw [List.cons_append, Token.next?, hUnits, Option.map_some]
  simp only [text?_map_char, Option.map_some, String.ofList_toList]

------------------------------------------------------------
-- Numbers
------------------------------------------------------------

/- A rest that does not go on with the number in front of it. -/
def Stops : List Char → Prop
| [] => True
| c :: _ =>
    c.isDigit = false ∧ c ≠ '.' ∧ c ≠ 'e' ∧ c ≠ 'E'

/- Digits are read up to a rest that stops them. -/
theorem digits?_append
    {digits rest : List Char}
    (hDigits : ∀ c ∈ digits, c.isDigit = true)
    (hSome : digits ≠ [])
    (hStops : Stops rest) :
    digits? (digits ++ rest) = some (digits, rest) := by
  have hTake : rest.takeWhile Char.isDigit = [] := by
    cases rest with
    | nil => rfl
    | cons c rest => simp [hStops.1]
  have hDrop : rest.dropWhile Char.isDigit = rest := by
    cases rest with
    | nil => rfl
    | cons c rest => simp [hStops.1]
  rw [digits?, List.takeWhile_append_of_pos hDigits, hTake,
    List.append_nil, List.dropWhile_append_of_pos hDigits, hDrop]
  cases digits with
  | nil => exact absurd rfl hSome
  | cons c digits => rfl

/- Only zero is written with a leading zero. -/
theorem eq_zero_of_toDigits
    {n : Nat}
    {digits : List Char}
    (hZero : Nat.toDigits 10 n = '0' :: digits) :
    n = 0 := by
  induction n using Nat.strongRecOn generalizing digits with
  | ind n ih =>
      rw [Nat.toDigits_eq_if (by decide)] at hZero
      by_cases hSmall : n < 10
      · rw [if_pos hSmall] at hZero
        have hChar := (List.cons.inj hZero).1
        have hAll : ∀ n < 10, Nat.digitChar n = '0' → n = 0 := by
          decide
        exact hAll n hSmall hChar
      · rw [if_neg hSmall] at hZero
        cases hFront : Nat.toDigits 10 (n / 10) with
        | nil => exact absurd hFront Nat.toDigits_ne_nil
        | cons c front =>
            rw [hFront, List.cons_append] at hZero
            rw [(List.cons.inj hZero).1] at hFront
            have hTenth := ih (n / 10) (by omega) hFront
            omega

/- The digits of a natural number are read as a whole part. -/
theorem whole?_toDigits
    (n : Nat)
    {rest : List Char}
    (hStops : Stops rest) :
    whole? (Nat.toDigits 10 n ++ rest) =
      some (Nat.toDigits 10 n, rest) := by
  have hDigits :=
    digits?_append (Text.numeral_toDigits n).digits
      Nat.toDigits_ne_nil hStops
  unfold whole?
  rw [hDigits]
  split
  · rename_i hFound
    exact hFound.symm
  · rename_i hNot hFound
    have hHead := congrArg Prod.fst (Option.some.inj hFound)
    have hZero := eq_zero_of_toDigits hHead
    subst hZero
    exact absurd (List.cons.inj hHead).2.symm hNot
  · rfl

/- An integer is read with its sign. -/
theorem unsigned?_toDigits
    (negative : Bool)
    (n : Nat)
    {rest : List Char}
    (hStops : Stops rest) :
    unsigned? negative (Nat.toDigits 10 n ++ rest) =
      some (⟨negative, Nat.toDigits 10 n, none, none⟩, rest) := by
  have hFraction : fraction? rest = some (none, rest) := by
    cases rest with
    | nil => rfl
    | cons c rest =>
        rw [fraction?]
        exact fun _ hSame => hStops.2.1 (List.cons.inj hSame).1
  have hExponent : exponent? rest = some (none, rest) := by
    cases rest with
    | nil => rfl
    | cons c rest =>
        rw [exponent?]
        · exact fun _ hSame => hStops.2.2.1 (List.cons.inj hSame).1
        · exact fun _ hSame => hStops.2.2.2 (List.cons.inj hSame).1
  unfold unsigned?
  simp only [whole?_toDigits n hStops, hFraction, hExponent,
    Option.map_some]

theorem text_ofInt
    (n : Int) :
    (Number.ofInt n).text =
      (if n < 0 then ['-'] else []) ++
        Nat.toDigits 10 n.natAbs := by
  simp [Number.text, Number.ofInt]

/- The first character of a written integer. -/
def StartsNumber (c : Char) : Prop :=
  c = '-' ∨ c.isDigit = true

theorem StartsNumber.not_isSpace
    {c : Char}
    (hStarts : StartsNumber c) :
    isSpace c = false := by
  rw [← Bool.not_eq_true]
  intro hSpace
  simp only [isSpace, Bool.or_eq_true, beq_iff_eq] at hSpace
  rcases hSpace with ((rfl | rfl) | rfl) | rfl
  all_goals
    rw [StartsNumber] at hStarts
    exact absurd hStarts (by decide)

theorem exists_text_ofInt_eq
    (n : Int) :
    ∃ c digits,
      (Number.ofInt n).text = c :: digits ∧ StartsNumber c := by
  rw [text_ofInt]
  by_cases hNegative : n < 0
  · rw [if_pos hNegative]
    exact ⟨_, _, rfl, .inl rfl⟩
  · rw [if_neg hNegative, List.nil_append]
    cases hDigits : Nat.toDigits 10 n.natAbs with
    | nil => exact absurd hDigits Nat.toDigits_ne_nil
    | cons c digits =>
        refine ⟨c, digits, rfl, .inr ?_⟩
        apply (Text.numeral_toDigits n.natAbs).digits
        simp [hDigits]

theorem number?_text_ofInt
    (n : Int)
    {rest : List Char}
    (hStops : Stops rest) :
    number? ((Number.ofInt n).text ++ rest) =
      some (Number.ofInt n, rest) := by
  rw [text_ofInt]
  by_cases hNegative : n < 0
  · rw [if_pos hNegative, List.append_assoc,
      List.singleton_append, number?,
      unsigned?_toDigits true _ hStops]
    simp [Number.ofInt, hNegative]
  · have hDigits := unsigned?_toDigits false n.natAbs hStops
    rw [if_neg hNegative, List.nil_append, number?, hDigits]
    · simp [Number.ofInt, hNegative]
    · intro after hMinus
      cases hText : Nat.toDigits 10 n.natAbs with
      | nil => exact absurd hText Nat.toDigits_ne_nil
      | cons c digits =>
          have hDigit := (Text.numeral_toDigits n.natAbs).digits c
          rw [hText] at hMinus hDigit
          rw [(List.cons.inj hMinus).1] at hDigit
          exact absurd (hDigit (by simp)) (by decide)

/- What starts like a number is read as one. -/
theorem next?_of_startsNumber
    {c : Char}
    (hStarts : StartsNumber c)
    (rest : List Char) :
    Token.next? (c :: rest) =
      (number? (c :: rest)).map fun (n, rest) =>
        (.number n, rest) := by
  -- Every other pattern starts with a character that no number
  -- starts with.
  unfold Token.next?
  split
  case h_11 => rfl
  all_goals
    rename_i hText
    rw [(List.cons.inj hText).1, StartsNumber] at hStarts
    exact absurd hStarts (by decide)

theorem scans_number
    (n : Int)
    {rest : List Char}
    (hStops : Stops rest) :
    Scans (Number.ofInt n).text [.number (Number.ofInt n)] rest := by
  rcases exists_text_ofInt_eq n with
    ⟨c, digits, hText, hStarts⟩
  have hNumber := number?_text_ofInt n hStops
  rw [hText] at hNumber ⊢
  apply scans_of_next? hStarts.not_isSpace
  · rw [List.cons_append] at hNumber ⊢
    rw [next?_of_startsNumber hStarts, hNumber]
    rfl

end CoreTally.Json
