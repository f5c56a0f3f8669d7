import CoreTally.Text.Numeral
import CoreTally.Yaml.Glyph
import CoreTally.Yaml.Token

/-
  This file reads the properties of nodes: the names of anchors
  and aliases, and tags. A tag is written in full between angle
  brackets, or as a handle with a suffix. In suffixes a percent
  sign escapes one byte of an encoded character.

  Key definitions include:
    * `Yaml.anchorName?`
    * `Yaml.Tag.bytes?`
    * `Yaml.Tag.handle`
    * `Yaml.Tag.token?`
-/

namespace CoreTally.Yaml

/- The name of an anchor or alias, and the glyphs behind it. -/
def anchorName? (glyphs : List Glyph) : Option (String × List Glyph) :=
  let (name, rest) := spanOf isNameChar glyphs
  let next := charAt rest 0
  if !name.isEmpty &&
      (endsWord next || ['?', ':', ',', ']', '\x7d', '%', '@', '\x60'].contains
        next) then
    some (String.ofList (Glyph.chars name), rest)
  else
    none

namespace Tag

------------------------------------------------------------
-- Escaped Bytes
------------------------------------------------------------

/- A character of suffixes; in a full tag there are more. -/
def isSuffixChar (full : Bool) (c : Char) : Bool :=
  isNameChar c || ";/?:@&=+$.%!~*'()".toList.contains c ||
    (full && (c == ',' || c == '[' || c == ']'))

/-
  The number of bytes that follow the first one of an encoded
  character.
-/
def followers? (first : Nat) : Option Nat :=
  if first < 0x80 then some 0
  else if first < 0xC0 then none
  else if first < 0xE0 then some 1
  else if first < 0xF0 then some 2
  else if first < 0xF8 then some 3
  else none

/-
  The number of bytes that are missing after one more byte. The
  byte starts a character where none was missing.
-/
def missingAfter? (missing : Nat) (byte : Nat) : Option Nat :=
  match missing with
  | 0 => followers? byte
  | missing + 1 =>
      if 0x80 ≤ byte ∧ byte < 0xC0 then some missing else none

/- Take in one character or escaped byte of a suffix. -/
def step
    (full : Bool)
    (state : List UInt8 × Nat)
    (glyphs : List Glyph) :
    Option (Move (List UInt8 × Nat) (List UInt8 × List Glyph)) :=
  let (bytes, missing) := state
  let c := charAt glyphs 0
  if c = '%' then do
    let byte ← Text.natural? 16 [charAt glyphs 1, charAt glyphs 2]
    let missing ← missingAfter? missing byte
    return .next (bytes ++ [UInt8.ofNat byte], missing) (glyphs.drop 3)
  else if missing ≠ 0 then
    none
  else if isSuffixChar full c then
    some (.next (bytes ++ [UInt8.ofNat c.toNat], 0) (glyphs.drop 1))
  else
    some (.done (bytes, glyphs))

/- The suffix at the start of some glyphs, possibly empty. -/
def bytes? (full : Bool) (glyphs : List Glyph) :
    Option (List UInt8 × List Glyph) :=
  repeat? (step full) ([], 0) glyphs

/- A suffix that is not empty. -/
def someBytes? (full : Bool) (glyphs : List Glyph) :
    Option (List UInt8 × List Glyph) :=
  (bytes? full glyphs).filter fun (bytes, _) => !bytes.isEmpty

------------------------------------------------------------
-- Handles
------------------------------------------------------------

/-
  The name behind an exclamation mark, and the glyphs behind a
  second exclamation mark, if there is one.
-/
def handle (glyphs : List Glyph) :
    List Char × List Glyph × Option (List Glyph) :=
  let (name, rest) := spanOf isNameChar glyphs
  let closed :=
    if charAt rest 0 = '!' then some (rest.drop 1) else none
  (Glyph.chars name, rest, closed)

/- The handle with a name. -/
def named (name : List Char) : String :=
  String.ofList ('!' :: name ++ ['!'])

/- The handle of tags without a name. -/
def bareHandle : String :=
  "!"

------------------------------------------------------------
-- Tags
------------------------------------------------------------

/- The tag in full behind an opening angle bracket. -/
def full? (glyphs : List Glyph) : Option (Token × List Glyph) :=
  (someBytes? true glyphs).bind fun (bytes, rest) =>
    if charAt rest 0 = '>' then
      some (.tag "" bytes, rest.drop 1)
    else
      none

/- The tag with a handle behind an exclamation mark. -/
def short? (glyphs : List Glyph) : Option (Token × List Glyph) :=
  let (name, rest, closed) := handle glyphs
  match closed with
  | some rest =>
      (someBytes? false rest).map fun (bytes, rest) =>
        (.tag (named name) bytes, rest)
  | none =>
      (bytes? false rest).map fun (bytes, rest) =>
        let start := name.map fun c => UInt8.ofNat c.toNat
        if name.isEmpty && bytes.isEmpty then
          (.tag "" bareHandle.toUTF8.data.toList, rest)
        else
          (.tag bareHandle (start ++ bytes), rest)

/- The tag behind an exclamation mark, which ends with its word. -/
def token? (inFlow : Bool) (glyphs : List Glyph) :
    Option (Token × List Glyph) :=
  let tag :=
    if charAt glyphs 0 = '<' then full? (glyphs.drop 1) else short? glyphs
  tag.filter fun (_, rest) =>
    let next := charAt rest 0
    endsWord next || (inFlow && next == ',')

end Tag

end CoreTally.Yaml
