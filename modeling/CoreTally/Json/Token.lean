import CoreTally.Json.Basic

/-
  This file cuts JSON texts into tokens.

  Key definitions include:
    * `Json.Token`
    * `Json.CodeUnit`
    * `Json.CodeUnit.text?`
    * `Json.Token.next?`
    * `Json.Token.scan?`

  Key theorems include:
    * `Json.Token.length_lt_of_next?`
-/

namespace CoreTally.Json

/- A token of a JSON text. -/
inductive Token where
| openArray
| closeArray
| openObject
| closeObject
| colon
| comma
| null
| bool (value : Bool)
| number (value : Number)
| string (text : Option String)
deriving DecidableEq, Repr

------------------------------------------------------------
-- Strings
------------------------------------------------------------

/- A character of a string, or half of a surrogate pair. -/
inductive CodeUnit where
| char (c : Char)
| half (code : Nat)
deriving DecidableEq, Repr

namespace CodeUnit

/- The first half of a surrogate pair. -/
def isHigh (code : Nat) : Bool :=
  0xD800 ≤ code && code < 0xDC00

/- The second half of a surrogate pair. -/
def isLow (code : Nat) : Bool :=
  0xDC00 ≤ code && code < 0xE000

/- The unit with a given 16-bit code. -/
def ofCode (code : Nat) : CodeUnit :=
  if isHigh code || isLow code then .half code else .char (Char.ofNat code)

/- The characters of a row of units, when all halves are paired. -/
def text? : List CodeUnit → Option (List Char)
| [] => some []
| .char c :: rest => (text? rest).map (c :: ·)
| .half high :: .half low :: rest =>
    if isHigh high && isLow low then
      let code :=
        0x10000 + (high - 0xD800) * 0x400 + (low - 0xDC00)
      (text? rest).map (Char.ofNat code :: ·)
    else
      none
| .half _ :: _ => none

end CodeUnit

/- The character that a letter stands for after a backslash. -/
def escaped? : Char → Option Char
| '"' => some '"'
| '\\' => some '\\'
| '/' => some '/'
| 'b' => some '\x08'
| 'f' => some '\x0c'
| 'n' => some '\n'
| 'r' => some '\r'
| 't' => some '\t'
| _ => none

/- The units of a string up to its closing quote, and the rest. -/
def stringUnits? :
    List Char → Option (List CodeUnit × List Char)
| [] => none
| '"' :: rest => some ([], rest)
| '\\' :: 'u' :: a :: b :: c :: d :: rest =>
    match Text.natural? 16 [a, b, c, d], stringUnits? rest with
    | some code, some (units, rest) =>
        some (CodeUnit.ofCode code :: units, rest)
    | _, _ => none
| '\\' :: letter :: rest =>
    match escaped? letter, stringUnits? rest with
    | some c, some (units, rest) => some (.char c :: units, rest)
    | _, _ => none
| c :: rest =>
    if c.toNat < 0x20 then
      none
    else
      match stringUnits? rest with
      | some (units, rest) => some (.char c :: units, rest)
      | none => none

------------------------------------------------------------
-- Numbers
------------------------------------------------------------

/- A non-empty row of digits, and the rest. -/
def digits? (text : List Char) : Option (List Char × List Char) :=
  match text.takeWhile Char.isDigit with
  | [] => none
  | digits => some (digits, text.dropWhile Char.isDigit)

/- Digits without a needless leading zero, and the rest. -/
def whole? (text : List Char) : Option (List Char × List Char) :=
  match digits? text with
  | some (['0'], rest) => some (['0'], rest)
  | some ('0' :: _, _) => none
  | found => found

/- A fraction, if one follows, and the rest. -/
def fraction? :
    List Char → Option (Option (List Char) × List Char)
| '.' :: rest =>
    (digits? rest).map fun (digits, rest) => (some digits, rest)
| rest => some (none, rest)

/- The digits of an exponent after its sign, and the rest. -/
def exponentDigits? :
    List Char → Option ((Bool × List Char) × List Char)
| '-' :: rest =>
    (digits? rest).map fun (digits, rest) => ((true, digits), rest)
| '+' :: rest =>
    (digits? rest).map fun (digits, rest) => ((false, digits), rest)
| rest =>
    (digits? rest).map fun (digits, rest) => ((false, digits), rest)

/- An exponent, if one follows, and the rest. -/
def exponent? :
    List Char → Option (Option (Bool × List Char) × List Char)
| 'e' :: rest
| 'E' :: rest =>
    (exponentDigits? rest).map fun (found, rest) => (some found, rest)
| rest => some (none, rest)

/- The parts of a number after its sign, and the rest. -/
def unsigned?
    (negative : Bool)
    (text : List Char) : Option (Number × List Char) :=
  match whole? text with
  | none => none
  | some (whole, afterWhole) =>
      match fraction? afterWhole with
      | none => none
      | some (fraction, afterFraction) =>
          (exponent? afterFraction).map fun (exponent, rest) =>
            (⟨negative, whole, fraction, exponent⟩, rest)

/- A number, and the rest. -/
def number? : List Char → Option (Number × List Char)
| '-' :: rest => unsigned? true rest
| text => unsigned? false text

------------------------------------------------------------
-- Tokens
------------------------------------------------------------

/- The blanks between tokens. -/
def isSpace (c : Char) : Bool :=
  c == ' ' || c == '\t' || c == '\n' || c == '\r'

namespace Token

/- The first token of a text that starts with no blank, and the rest. -/
def next? : List Char → Option (Token × List Char)
| '[' :: rest => some (.openArray, rest)
| ']' :: rest => some (.closeArray, rest)
| '\x7b' :: rest => some (.openObject, rest)
| '\x7d' :: rest => some (.closeObject, rest)
| ':' :: rest => some (.colon, rest)
| ',' :: rest => some (.comma, rest)
| 'n' :: 'u' :: 'l' :: 'l' :: rest => some (.null, rest)
| 't' :: 'r' :: 'u' :: 'e' :: rest => some (.bool true, rest)
| 'f' :: 'a' :: 'l' :: 's' :: 'e' :: rest => some (.bool false, rest)
| '"' :: rest =>
    (stringUnits? rest).map fun (units, rest) =>
      (.string ((CodeUnit.text? units).map String.ofList), rest)
| text => (number? text).map fun (n, rest) => (.number n, rest)

/- The rest after a string is shorter than the text. -/
theorem length_lt_of_stringUnits?
    {text : List Char}
    {units : List CodeUnit}
    {rest : List Char}
    (h : stringUnits? text = some (units, rest)) :
    rest.length < text.length := by
  fun_induction stringUnits? text generalizing units rest <;>
    simp_all <;> omega

/- The rest after digits is shorter than the text. -/
theorem length_lt_of_digits?
    {text digits rest : List Char}
    (h : digits? text = some (digits, rest)) :
    rest.length < text.length := by
  unfold digits? at h
  split at h
  · simp at h
  · rename_i hDigits
    obtain ⟨-, rfl⟩ := by simpa using h
    have hLength := congrArg List.length
      (List.takeWhile_append_dropWhile (p := Char.isDigit) (l := text))
    simp only [List.length_append] at hLength
    have : 0 < (text.takeWhile Char.isDigit).length := by
      apply List.length_pos_iff.mpr
      simpa using hDigits
    omega

/- The rest after a whole part is shorter than the text. -/
theorem length_lt_of_whole?
    {text digits rest : List Char}
    (h : whole? text = some (digits, rest)) :
    rest.length < text.length := by
  unfold whole? at h
  split at h
  · rename_i hDigits
    obtain ⟨-, rfl⟩ := by simpa using h
    exact length_lt_of_digits? hDigits
  · simp at h
  · exact length_lt_of_digits? h

/- The rest after an optional fraction is no longer than the text. -/
theorem length_le_of_fraction?
    {text rest : List Char}
    {fraction : Option (List Char)}
    (h : fraction? text = some (fraction, rest)) :
    rest.length ≤ text.length := by
  unfold fraction? at h
  split at h
  · obtain ⟨⟨digits, rest'⟩, hDigits, hEq⟩ := Option.map_eq_some_iff.mp h
    cases hEq
    have := length_lt_of_digits? hDigits
    simp only [List.length_cons]
    omega
  · cases h
    exact Nat.le_refl _

/- The rest after exponent digits is shorter than the text. -/
theorem length_lt_of_exponentDigits?
    {text rest : List Char}
    {found : Bool × List Char}
    (h : exponentDigits? text = some (found, rest)) :
    rest.length < text.length := by
  unfold exponentDigits? at h
  split at h <;>
  · obtain ⟨⟨digits, rest'⟩, hDigits, hEq⟩ := Option.map_eq_some_iff.mp h
    cases hEq
    have := length_lt_of_digits? hDigits
    simp only [List.length_cons] at *
    omega

/- The rest after an optional exponent is no longer than the text. -/
theorem length_le_of_exponent?
    {text rest : List Char}
    {exponent : Option (Bool × List Char)}
    (h : exponent? text = some (exponent, rest)) :
    rest.length ≤ text.length := by
  unfold exponent? at h
  split at h
  · obtain ⟨⟨found, rest'⟩, hDigits, hEq⟩ := Option.map_eq_some_iff.mp h
    cases hEq
    have := length_lt_of_exponentDigits? hDigits
    simp only [List.length_cons]
    omega
  · obtain ⟨⟨found, rest'⟩, hDigits, hEq⟩ := Option.map_eq_some_iff.mp h
    cases hEq
    have := length_lt_of_exponentDigits? hDigits
    simp only [List.length_cons]
    omega
  · cases h
    exact Nat.le_refl _

/- The rest after an unsigned number is shorter than the text. -/
theorem length_lt_of_unsigned?
    {negative : Bool}
    {text rest : List Char}
    {n : Number}
    (h : unsigned? negative text = some (n, rest)) :
    rest.length < text.length := by
  unfold unsigned? at h
  split at h
  · simp at h
  · rename_i hWhole
    split at h
    · simp at h
    · rename_i hFraction
      obtain ⟨⟨exponent, rest'⟩, hExponent, hEq⟩ :=
        Option.map_eq_some_iff.mp h
      cases hEq
      have := length_lt_of_whole? hWhole
      have := length_le_of_fraction? hFraction
      have := length_le_of_exponent? hExponent
      omega

/- The rest after a number is shorter than the text. -/
theorem length_lt_of_number?
    {text rest : List Char}
    {n : Number}
    (h : number? text = some (n, rest)) :
    rest.length < text.length := by
  unfold number? at h
  split at h
  · have := length_lt_of_unsigned? h
    simp only [List.length_cons]
    omega
  · exact length_lt_of_unsigned? h

/- The rest after a token is shorter than the text. -/
theorem length_lt_of_next?
    {text rest : List Char}
    {token : Token}
    (h : next? text = some (token, rest)) :
    rest.length < text.length := by
  unfold next? at h
  split at h
  iterate 9
    cases h
    simp only [List.length_cons]
    omega
  · obtain ⟨⟨units, rest'⟩, hUnits, hEq⟩ := Option.map_eq_some_iff.mp h
    cases hEq
    have := length_lt_of_stringUnits? hUnits
    simp only [List.length_cons]
    omega
  · obtain ⟨⟨n, rest'⟩, hNumber, hEq⟩ := Option.map_eq_some_iff.mp h
    cases hEq
    exact length_lt_of_number? hNumber

/- The tokens of a text, when all of it consists of tokens. -/
def scan? (text : List Char) : Option (List Token) :=
  match text with
  | [] => some []
  | c :: rest =>
      if isSpace c then
        scan? rest
      else
        match h : next? (c :: rest) with
        | none => none
        | some (token, after) =>
            have := length_lt_of_next? h
            (scan? after).map (token :: ·)
termination_by text.length
decreasing_by
  · simp
  · assumption

end Token

end CoreTally.Json
