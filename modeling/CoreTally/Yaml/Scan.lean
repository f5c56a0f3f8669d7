import CoreTally.Yaml.Block
import CoreTally.Yaml.Directive
import CoreTally.Yaml.Layout
import CoreTally.Yaml.Plain
import CoreTally.Yaml.Quoted
import CoreTally.Yaml.Tag

/-
  This file cuts YAML texts into tokens. The first character of
  a token, and sometimes the one behind it, tells which token it
  is.

  Key definitions include:
    * `Yaml.skipGap`
    * `Yaml.startsPlain`
    * `Yaml.Layout.take?`
    * `Yaml.tokens?`
-/

namespace CoreTally.Yaml

------------------------------------------------------------
-- Gaps
------------------------------------------------------------

/-
  Drop blanks, comments and line breaks before the next token,
  and tell whether a key may start there. Outside of flow
  collections a line break allows a key, and where a key may
  start no tab is taken for a blank.
-/
def skipGap
    (inFlow : Bool)
    (inComment keyAllowed : Bool) :
    List Glyph → Bool × List Glyph
| [] => (keyAllowed, [])
| glyph :: rest =>
    let c := glyph.char
    if isBreak c then
      skipGap inFlow false (keyAllowed || !inFlow) rest
    else if inComment && !isEnd c then
      skipGap inFlow true keyAllowed rest
    else if c == ' ' || (c == '\t' && (inFlow || !keyAllowed)) then
      skipGap inFlow false keyAllowed rest
    else if c == '#' then
      skipGap inFlow true keyAllowed rest
    else if c == byteOrderMark && glyph.index == 0 then
      skipGap inFlow false keyAllowed rest
    else
      (keyAllowed, glyph :: rest)

------------------------------------------------------------
-- Tokens
------------------------------------------------------------

/- The characters that have a meaning of their own. -/
def indicators : List Char :=
  "-?:,[]#&*!|>'\"%@\x60\x7b\x7d".toList

/-
  A plain scalar starts with a character and the next one. Some
  indicators may start one when they touch the next character.
-/
def startsPlain (inFlow : Bool) (c next : Char) : Bool :=
  (!endsWord c && !indicators.contains c) ||
    (c == '-' && !isSpacing next) ||
    (!inFlow && (c == '?' || c == ':') && !endsWord next)

namespace Layout

/- A plain scalar at the start of some glyphs. -/
def takePlain?
    (layout : Layout)
    (start : Glyph)
    (glyphs : List Glyph) : Option (Layout × List Glyph) := do
  let context := ⟨layout.inFlow, layout.innerColumn⟩
  let scalar ← Plain.scalar? context glyphs
  let layout ← layout.part? start (.scalar .plain scalar.text)
  return (layout.allowKey scalar.crossedLine, scalar.rest)

/- A quoted scalar behind its opening quote. -/
def takeQuoted?
    (layout : Layout)
    (start : Glyph)
    (style : ScalarStyle)
    (glyphs : List Glyph) : Option (Layout × List Glyph) := do
  let (text, rest) ← Quoted.scalar? start.char glyphs
  let layout ← layout.part? start (.scalar style text)
  return (layout, rest)

/- A block scalar behind its indicator. -/
def takeBlock?
    (layout : Layout)
    (style : ScalarStyle)
    (glyphs : List Glyph) : Option (Layout × List Glyph) := do
  let (text, rest) ←
    Block.scalar? (style == .folded) layout.indent? glyphs
  let layout ← layout.blockScalar? (.scalar style text)
  return (layout, rest)

/- The name of an anchor or alias behind its indicator. -/
def takeName?
    (layout : Layout)
    (start : Glyph)
    (token : String → Token)
    (glyphs : List Glyph) : Option (Layout × List Glyph) := do
  let (name, rest) ← anchorName? glyphs
  let layout ← layout.part? start (token name)
  return (layout, rest)

/- A tag behind its indicator. -/
def takeTag?
    (layout : Layout)
    (start : Glyph)
    (glyphs : List Glyph) : Option (Layout × List Glyph) := do
  let (token, rest) ← Tag.token? layout.inFlow glyphs
  let layout ← layout.part? start token
  return (layout, rest)

/- A directive behind its indicator. -/
def takeDirective?
    (layout : Layout)
    (glyphs : List Glyph) : Option (Layout × List Glyph) := do
  let (token, rest) ← Directive.token? glyphs
  let layout ← layout.outside? token
  return (layout, rest)

/- The start or end of a document. -/
def takeMark?
    (layout : Layout)
    (token : Token)
    (glyphs : List Glyph) : Option (Layout × List Glyph) :=
  (layout.outside? token).map fun layout => (layout, glyphs.drop 3)

/- Take in the token that starts with a glyph. -/
def take?
    (layout : Layout)
    (start : Glyph)
    (rest : List Glyph) : Option (Layout × List Glyph) :=
  let glyphs := start :: rest
  let c := start.char
  let next := charAt rest 0
  let isAlone := layout.inFlow || endsWord next
  let single (layout : Option Layout) : Option (Layout × List Glyph) :=
    layout.map fun layout => (layout, rest)
  if start.column == 0 && c == '%' then
    layout.takeDirective? rest
  else if isMark '-' glyphs then
    layout.takeMark? .documentStart glyphs
  else if isMark '.' glyphs then
    layout.takeMark? .documentEnd glyphs
  else if c == '[' then
    single (layout.openFlow? start .openFlowSequence)
  else if c == '\x7b' then
    single (layout.openFlow? start .openFlowMapping)
  else if c == ']' then
    single (layout.closeFlow? .closeFlowSequence)
  else if c == '\x7d' then
    single (layout.closeFlow? .closeFlowMapping)
  else if c == ',' then
    single layout.comma?
  else if c == '-' && endsWord next then
    single (layout.entry? start.column)
  else if c == '?' && isAlone then
    single (layout.key? start.column)
  else if c == ':' && isAlone then
    single (layout.value? start.column)
  else if c == '*' then
    layout.takeName? start .alias rest
  else if c == '&' then
    layout.takeName? start .anchor rest
  else if c == '!' then
    layout.takeTag? start rest
  else if c == '|' && !layout.inFlow then
    layout.takeBlock? .literal rest
  else if c == '>' && !layout.inFlow then
    layout.takeBlock? .folded rest
  else if c == '\'' then
    layout.takeQuoted? start .singleQuoted rest
  else if c == '"' then
    layout.takeQuoted? start .doubleQuoted rest
  else if startsPlain layout.inFlow c next then
    layout.takePlain? start glyphs
  else
    none

/- Take in the next token, or finish at the end of the text. -/
def step
    (layout : Layout)
    (glyphs : List Glyph) : Option (Move Layout (List Token)) := do
  let (keyAllowed, glyphs) :=
    skipGap layout.inFlow false layout.keyAllowed glyphs
  match glyphs with
  | [] => none
  | start :: rest =>
      let layout ← (layout.allowKey keyAllowed).expire? start
      let layout := layout.closeBeyond start.column
      if isEnd start.char then
        let layout ← layout.closeAll.dropKey?
        return .done layout.tokens.toList
      else
        let (layout, rest) ← layout.take? start rest
        return .next layout rest

end Layout

/- The tokens of a text. -/
def tokens? (text : String) : Option (List Token) :=
  (Glyph.ofText? text).bind fun glyphs =>
    repeat? Layout.step {} glyphs

end CoreTally.Yaml
