import CoreTally.Yaml.Block
import CoreTally.Yaml.Tag

/-
  This file reads directives, which stand before a document and
  give the version of the language or the meaning of a handle.

  Key definitions include:
    * `Yaml.Directive.version?`
    * `Yaml.Directive.tag?`
    * `Yaml.Directive.token?`
-/

namespace CoreTally.Yaml.Directive

/- The longest number of a version. -/
def longestNumber : Nat := 9

/- A number at the start of some glyphs. -/
def number? (glyphs : List Glyph) : Option (Nat × List Glyph) :=
  let (digits, rest) := spanOf Char.isDigit glyphs
  if digits.length ≤ longestNumber then
    (Text.natural? 10 (Glyph.chars digits)).map fun n => (n, rest)
  else
    none

/- A version behind the name of its directive. -/
def version? (glyphs : List Glyph) : Option (Token × List Glyph) := do
  let (major, rest) ← number? (skip isSpacing glyphs)
  if charAt rest 0 = '.' then
    let (minor, rest) ← number? (rest.drop 1)
    return (.version major minor, rest)
  else
    none

/- A handle, which starts with an exclamation mark. -/
def handle? (glyphs : List Glyph) : Option (String × List Glyph) :=
  if charAt glyphs 0 = '!' then
    match Tag.handle (glyphs.drop 1) with
    | (name, _, some rest) => some (Tag.named name, rest)
    | ([], rest, none) => some (Tag.bareHandle, rest)
    | _ => none
  else
    none

/- The meaning of a handle behind the name of its directive. -/
def tag? (glyphs : List Glyph) : Option (Token × List Glyph) := do
  let (handle, rest) ← handle? (skip isSpacing glyphs)
  if isSpacing (charAt rest 0) then
    let (bytes, rest) ← Tag.someBytes? true (skip isSpacing rest)
    if endsWord (charAt rest 0) then
      return (.tagDirective handle bytes, rest)
    else
      none
  else
    none

/- The directive behind a percent sign, to the end of its line. -/
def token? (glyphs : List Glyph) : Option (Token × List Glyph) := do
  let (name, rest) := spanOf isNameChar glyphs
  let name := Glyph.chars name
  if endsWord (charAt rest 0) then
    let (token, rest) ←
      if name = "YAML".toList then version? rest
      else if name = "TAG".toList then tag? rest
      else none
    let rest ← Block.endLine? rest
    return (token, rest)
  else
    none

end CoreTally.Yaml.Directive
