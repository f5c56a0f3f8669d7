/-
  This file turns YAML texts into glyphs, which are characters
  with their places. Every way to end a line with a carriage
  return, a line feed or a next-line character becomes one line
  feed, and a NUL glyph stands behind the text.

  Key definitions include:
    * `Yaml.Glyph`
    * `Yaml.Glyph.ofText?`
    * `Yaml.charAt`
    * `Yaml.isMark`
    * `Yaml.repeat?`
-/

namespace CoreTally.Yaml

------------------------------------------------------------
-- Classes of Characters
------------------------------------------------------------

/- A character that may stand in a text. -/
def isAllowed (c : Char) : Bool :=
  let n := c.toNat
  n == 0x09 || n == 0x0A || n == 0x0D || (0x20 ≤ n && n ≤ 0x7E) ||
    n == 0x85 || (0xA0 ≤ n && n ≤ 0xFFFD) || 0x10000 ≤ n

/- The mark that may open a text. -/
def byteOrderMark : Char :=
  '\uFEFF'

/- The glyph behind a text. -/
def isEnd (c : Char) : Bool :=
  c == '\x00'

/- A space or a tab. -/
def isSpacing (c : Char) : Bool :=
  c == ' ' || c == '\t'

/- The end of a line, or a separator of lines or paragraphs. -/
def isBreak (c : Char) : Bool :=
  c == '\n' || c == '\u2028' || c == '\u2029'

/- Anything between words. -/
def isGap (c : Char) : Bool :=
  isSpacing c || isBreak c

/- Anything that a word ends before. -/
def endsWord (c : Char) : Bool :=
  isGap c || isEnd c

/- Anything that a line ends before. -/
def endsLine (c : Char) : Bool :=
  isBreak c || isEnd c

/- A character of names: a letter, digit, underscore or hyphen. -/
def isNameChar (c : Char) : Bool :=
  c.isAlphanum || c == '_' || c == '-'

/- A bracket or comma of flow collections. -/
def isFlowIndicator (c : Char) : Bool :=
  c == ',' || c == '[' || c == ']' || c == '\x7b' || c == '\x7d'

------------------------------------------------------------
-- Glyphs
------------------------------------------------------------

/- A character, the characters before it, and its line and column. -/
structure Glyph where
  char : Char
  index : Nat
  line : Nat
  column : Nat
deriving DecidableEq, Repr

namespace Glyph

/- The glyphs of a text that starts at a given place. -/
def place (index line column : Nat) : List Char → List Glyph
| [] => [⟨'\x00', index, line, column⟩]
| '\r' :: '\n' :: rest =>
    ⟨'\n', index, line, column⟩ :: place (index + 2) (line + 1) 0 rest
| c :: rest =>
    if c = '\r' ∨ c = '\u0085' then
      ⟨'\n', index, line, column⟩ :: place (index + 1) (line + 1) 0 rest
    else if isBreak c then
      ⟨c, index, line, column⟩ :: place (index + 1) (line + 1) 0 rest
    else
      ⟨c, index, line, column⟩ :: place (index + 1) line (column + 1) rest

/- A text without the mark that may open it. -/
def dropMark : List Char → List Char
| [] => []
| c :: rest => if c = byteOrderMark then rest else c :: rest

/- The glyphs of a text in which every character is allowed. -/
def ofText? (text : String) : Option (List Glyph) :=
  let chars := dropMark text.toList
  if chars.all isAllowed then some (place 0 0 0 chars) else none

/- The characters of some glyphs. -/
def chars (glyphs : List Glyph) : List Char :=
  glyphs.map char

end Glyph

------------------------------------------------------------
-- Looking Ahead
------------------------------------------------------------

/- The character some glyphs ahead. -/
def charAt (glyphs : List Glyph) (distance : Nat) : Char :=
  match glyphs[distance]? with
  | none => '\x00'
  | some glyph => glyph.char

/- The column of the next glyph. -/
def columnOf (glyphs : List Glyph) : Nat :=
  match glyphs with
  | [] => 0
  | glyph :: _ => glyph.column

/- Three times the given character on their own, opening a line. -/
def isMark (c : Char) (glyphs : List Glyph) : Bool :=
  columnOf glyphs == 0 && charAt glyphs 0 == c && charAt glyphs 1 == c &&
    charAt glyphs 2 == c && endsWord (charAt glyphs 3)

/- The start or the end of a document. -/
def isDocumentMark (glyphs : List Glyph) : Bool :=
  isMark '-' glyphs || isMark '.' glyphs

/- The glyphs before and from the first one outside a class. -/
def spanOf
    (inside : Char → Bool)
    (glyphs : List Glyph) : List Glyph × List Glyph :=
  glyphs.span fun glyph => inside glyph.char

/- The glyphs from the first one outside a class. -/
def skip (inside : Char → Bool) (glyphs : List Glyph) : List Glyph :=
  glyphs.dropWhile fun glyph => inside glyph.char

------------------------------------------------------------
-- Repetition
------------------------------------------------------------

/- Go on behind some glyphs, or finish. -/
inductive Move (σ ρ : Type) where
| next (state : σ) (rest : List Glyph)
| done (result : ρ)

/-
  Repeat a step until it finishes. Every other step must take
  some glyphs in.
-/
def repeat?
    {σ ρ : Type}
    (step : σ → List Glyph → Option (Move σ ρ))
    (state : σ)
    (glyphs : List Glyph) : Option ρ :=
  match step state glyphs with
  | none => none
  | some (.done result) => some result
  | some (.next state rest) =>
      if rest.length < glyphs.length then
        repeat? step state rest
      else
        none
termination_by glyphs.length

end CoreTally.Yaml
