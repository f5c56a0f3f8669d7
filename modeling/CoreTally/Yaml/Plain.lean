import CoreTally.Yaml.Glyph

/-
  This file reads plain scalars, which stand without quotes, and
  folds the gaps between their words. A gap inside one line is
  kept. Of a gap over several lines only the line breaks count:
  a single line feed becomes a space, and further ones are kept.

  Key definitions include:
    * `Yaml.foldGap`
    * `Yaml.Plain.word?`
    * `Yaml.Plain.scalar?`
-/

namespace CoreTally.Yaml

/- The text that a gap between two words stands for. -/
def foldGap (gap : List Char) : List Char :=
  match gap.filter isBreak with
  | [] => gap
  | '\n' :: [] => [' ']
  | '\n' :: more => more
  | breaks => breaks

namespace Plain

/- Where a plain scalar stands. -/
structure Context where
  inFlow : Bool
  indent : Nat

/-
  The word at the start of some glyphs, possibly empty, and the
  glyphs behind it. Inside flow collections a colon must not
  touch an indicator.
-/
def word? (inFlow : Bool) : List Glyph → Option (List Char × List Glyph)
| [] => some ([], [])
| glyph :: rest =>
    let next := charAt rest 0
    if endsWord glyph.char then
      some ([], glyph :: rest)
    else if inFlow && glyph.char == ':' &&
        (isFlowIndicator next || next == '?') then
      none
    else if (glyph.char == ':' && endsWord next) ||
        (inFlow && isFlowIndicator glyph.char) then
      some ([], glyph :: rest)
    else
      (word? inFlow rest).map fun (word, rest) =>
        (glyph.char :: word, rest)

/- A gap reaches over the end of a line. -/
def crossesLine (gap : List Glyph) : Bool :=
  gap.any fun glyph => isBreak glyph.char

/- A tab stands in the indentation of a line after the first one. -/
def hasTabIndent (indent : Nat) (gap : List Glyph) : Bool :=
  (gap.dropWhile fun glyph => !isBreak glyph.char).any fun glyph =>
    glyph.char == '\t' && glyph.column < indent

/- A plain scalar, and whether a line ended in the gap behind it. -/
structure Scalar where
  text : String
  crossedLine : Bool
  rest : List Glyph

/- Take in the next word and the gap behind it. -/
def step
    (context : Context)
    (state : String × List Glyph)
    (glyphs : List Glyph) :
    Option (Move (String × List Glyph) Scalar) :=
  let (text, gap) := state
  let stopped := Move.done ⟨text, crossesLine gap, glyphs⟩
  if isDocumentMark glyphs || charAt glyphs 0 == '#' then
    some stopped
  else
    match word? context.inFlow glyphs with
    | none => none
    | some ([], _) => some stopped
    | some (word, rest) =>
        let text := text ++ String.ofList (foldGap (Glyph.chars gap) ++ word)
        let (gap, rest) := spanOf isGap rest
        if hasTabIndent context.indent gap then
          none
        else if gap.isEmpty ||
            (!context.inFlow && columnOf rest < context.indent) then
          some (.done ⟨text, crossesLine gap, rest⟩)
        else
          some (.next (text, gap) rest)

/- The plain scalar at the start of some glyphs. -/
def scalar? (context : Context) (glyphs : List Glyph) : Option Scalar :=
  repeat? (step context) ("", []) glyphs

end Plain

end CoreTally.Yaml
