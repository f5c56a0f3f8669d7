import CoreTally.Text.Numeral
import CoreTally.Yaml.Plain

/-
  This file reads quoted scalars. A single quote inside single
  quotes is written twice. Inside double quotes a backslash
  starts an escape sequence, and at the end of a line it drops
  the line break. Other gaps are folded as in plain scalars.

  Key definitions include:
    * `Yaml.Quoted.shortEscape?`
    * `Yaml.Quoted.escape?`
    * `Yaml.Quoted.scalar?`
-/

namespace CoreTally.Yaml.Quoted

------------------------------------------------------------
-- Escape Sequences
------------------------------------------------------------

/- The character that a letter stands for after a backslash. -/
def shortEscape? (c : Char) : Option Char :=
  match c with
  | '0' => some '\x00'
  | 'a' => some '\x07'
  | 'b' => some '\x08'
  | 't' => some '\t'
  | '\t' => some '\t'
  | 'n' => some '\n'
  | 'v' => some '\x0b'
  | 'f' => some '\x0c'
  | 'r' => some '\r'
  | 'e' => some '\x1b'
  | ' ' => some ' '
  | '"' => some '"'
  | '/' => some '/'
  | '\\' => some '\\'
  | 'N' => some '\u0085'
  | '_' => some '\u00a0'
  | 'L' => some '\u2028'
  | 'P' => some '\u2029'
  | _ => none

/- The number of digits after the letter of a numeric escape. -/
def digitCount? (c : Char) : Option Nat :=
  match c with
  | 'x' => some 2
  | 'u' => some 4
  | 'U' => some 8
  | _ => none

/- The character with a code, which must not be half of a pair. -/
def ofCode? (code : Nat) : Option Char :=
  if code.isValidChar then some (Char.ofNat code) else none

/- The character with a code of so many hexadecimal digits. -/
def numeric?
    (count : Nat)
    (glyphs : List Glyph) : Option (Char × List Glyph) :=
  let digits := Glyph.chars (glyphs.take count)
  if digits.length = count then
    ((Text.natural? 16 digits).bind ofCode?).map fun c =>
      (c, glyphs.drop count)
  else
    none

/- The character that the glyphs after a backslash stand for. -/
def escape? (glyphs : List Glyph) : Option (Char × List Glyph) :=
  let letter := charAt glyphs 0
  match shortEscape? letter with
  | some c => some (c, glyphs.drop 1)
  | none =>
      (digitCount? letter).bind fun count =>
        numeric? count (glyphs.drop 1)

------------------------------------------------------------
-- Scalars
------------------------------------------------------------

/- Take in a gap, which is folded. -/
def stepGap
    (text : String)
    (glyphs : List Glyph) : Move String (String × List Glyph) :=
  let (gap, rest) := spanOf isGap glyphs
  .next (text ++ String.ofList (foldGap (Glyph.chars gap))) rest

/- Take in the glyphs after a backslash. -/
def stepEscape
    (text : String)
    (glyphs : List Glyph) : Option (Move String (String × List Glyph)) :=
  if isBreak (charAt glyphs 0) then
    let (gap, rest) := spanOf isGap (glyphs.drop 1)
    let breaks := (Glyph.chars gap).filter isBreak
    some (.next (text ++ String.ofList breaks) rest)
  else
    (escape? glyphs).map fun (c, rest) => .next (text.push c) rest

/- A character that stands for itself between quotes of a kind. -/
def isOrdinary (quote c : Char) : Bool :=
  !endsWord c && c != quote && c != '\\'

/- Take in characters that stand for themselves, and at least one. -/
def stepOrdinary
    (quote : Char)
    (text : String)
    (glyphs : List Glyph) : Move String (String × List Glyph) :=
  let (more, rest) := spanOf (isOrdinary quote) (glyphs.drop 1)
  let word := Glyph.chars (glyphs.take 1 ++ more)
  .next (text ++ String.ofList word) rest

/- Take in the next part of a scalar between quotes. -/
def step
    (quote : Char)
    (text : String)
    (glyphs : List Glyph) : Option (Move String (String × List Glyph)) :=
  let c := charAt glyphs 0
  let rest := glyphs.drop 1
  if isDocumentMark glyphs || isEnd c then
    none
  else if isGap c then
    some (stepGap text glyphs)
  else if c == quote then
    if quote == '\'' && charAt rest 0 == quote then
      some (.next (text.push quote) (rest.drop 1))
    else
      some (.done (text, rest))
  else if quote == '"' && c == '\\' then
    stepEscape text rest
  else
    some (stepOrdinary quote text glyphs)

/- The scalar behind an opening quote, and the glyphs behind it. -/
def scalar?
    (quote : Char)
    (glyphs : List Glyph) : Option (String × List Glyph) :=
  repeat? (step quote) "" glyphs

end CoreTally.Yaml.Quoted
