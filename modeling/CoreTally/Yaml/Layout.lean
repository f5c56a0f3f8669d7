import CoreTally.Yaml.Glyph
import CoreTally.Yaml.Token

/-
  This file keeps track of the layout of a text while its tokens
  are read: how far blocks are indented, how flow collections
  are nested, and where a key may have started.

  A key need not be marked. It is found out by the colon behind
  it, which must follow in the same line, and the token that
  marks the key is then put in front of it.

  Key definitions include:
    * `Yaml.PendingKey`
    * `Yaml.Layout`
    * `Yaml.Layout.expire?`
    * `Yaml.Layout.openFlow?`
    * `Yaml.Layout.closeFlow?`
    * `Yaml.Layout.entry?`
    * `Yaml.Layout.value?`
-/

namespace CoreTally.Yaml

------------------------------------------------------------
-- Pending Keys
------------------------------------------------------------

/-
  A place where a key may have started, and the number of tokens
  before it. A key that its block needs must turn out to be one.
-/
structure PendingKey where
  start : Glyph
  position : Nat
  required : Bool

/- The longest key in characters. -/
def longestKey : Nat := 1024

/- It is too late for a colon at some glyph. -/
def PendingKey.isStale (key : PendingKey) (glyph : Glyph) : Bool :=
  key.start.line < glyph.line || key.start.index + longestKey < glyph.index

------------------------------------------------------------
-- Layouts
------------------------------------------------------------

/-
  The tokens so far, the columns of the open blocks, innermost
  first, whether a key may start, and the pending key of the
  innermost flow collection and of those around it.
-/
structure Layout where
  tokens : Array Token := #[]
  indents : List Nat := []
  keyAllowed : Bool := true
  key : Option PendingKey := none
  outerKeys : List (Option PendingKey) := []

namespace Layout

/- A flow collection is open. -/
def inFlow (layout : Layout) : Bool :=
  !layout.outerKeys.isEmpty

/- The column of the innermost block. -/
def indent? (layout : Layout) : Option Nat :=
  layout.indents.head?

/- The first column inside the innermost block. -/
def innerColumn (layout : Layout) : Nat :=
  (layout.indent?.map (· + 1)).getD 0

/- Add a token. -/
def push (layout : Layout) (token : Token) : Layout :=
  { layout with tokens := layout.tokens.push token }

/- Put a token behind a number of others. -/
def insert (layout : Layout) (position : Nat) (token : Token) : Layout :=
  { layout with
    tokens := layout.tokens.insertIdxIfInBounds position token }

/- Say whether a key may start. -/
def allowKey (layout : Layout) (allowed : Bool) : Layout :=
  { layout with keyAllowed := allowed }

------------------------------------------------------------
-- Keys
------------------------------------------------------------

/- A pending key, unless it is stale at some glyph. -/
def current?
    (glyph : Glyph) : Option PendingKey → Option (Option PendingKey)
| none => some none
| some key =>
    if key.isStale glyph then
      if key.required then none else some none
    else
      some (some key)

/- Give up all keys that are stale at some glyph. -/
def expire? (layout : Layout) (glyph : Glyph) : Option Layout := do
  let key ← current? glyph layout.key
  let outerKeys ← layout.outerKeys.mapM (current? glyph)
  return { layout with key, outerKeys }

/- Give up the pending key. -/
def dropKey? (layout : Layout) : Option Layout :=
  if layout.key.any PendingKey.required then
    none
  else
    some { layout with key := none }

/- Note that a key may start at some glyph. -/
def noteKey? (layout : Layout) (start : Glyph) : Option Layout :=
  if layout.keyAllowed then
    layout.dropKey?.map fun layout =>
      { layout with
        key :=
          some
            { start
              position := layout.tokens.size
              required :=
                !layout.inFlow && layout.indent? == some start.column } }
  else
    some layout

------------------------------------------------------------
-- Blocks
------------------------------------------------------------

/- Close the innermost blocks as long as they are to end. -/
def closeWhile (layout : Layout) (ends : Nat → Bool) : Layout :=
  if layout.inFlow then
    layout
  else
    let indents := layout.indents.dropWhile ends
    let closed := layout.indents.length - indents.length
    { layout with
      indents
      tokens := layout.tokens ++ Array.replicate closed .closeBlock }

/- Close the blocks that are indented beyond a column. -/
def closeBeyond (layout : Layout) (column : Nat) : Layout :=
  layout.closeWhile (column < ·)

/- Close all blocks. -/
def closeAll (layout : Layout) : Layout :=
  layout.closeWhile fun _ => true

/-
  Open a block at a column, behind a number of tokens, where it
  is indented beyond the innermost one.
-/
def openBlock
    (layout : Layout)
    (column position : Nat)
    (token : Token) : Layout :=
  if layout.inFlow || layout.indent?.any (column ≤ ·) then
    layout
  else
    { layout with indents := column :: layout.indents }.insert
      position token

/- Open a block at a column for the next token. -/
def openBlock?
    (layout : Layout)
    (column : Nat)
    (token : Token) : Option Layout :=
  if layout.inFlow then
    some layout
  else if layout.keyAllowed then
    some (layout.openBlock column layout.tokens.size token)
  else
    none

------------------------------------------------------------
-- Tokens
------------------------------------------------------------

/- A directive, or the start or end of a document. -/
def outside? (layout : Layout) (token : Token) : Option Layout :=
  layout.closeAll.dropKey?.map fun layout =>
    (layout.allowKey false).push token

/- The opening bracket of a flow collection. -/
def openFlow?
    (layout : Layout)
    (start : Glyph)
    (token : Token) : Option Layout :=
  (layout.noteKey? start).map fun layout =>
    { layout with
      key := none
      outerKeys := layout.key :: layout.outerKeys
      keyAllowed := true }.push token

/- The closing bracket of a flow collection. -/
def closeFlow? (layout : Layout) (token : Token) : Option Layout :=
  layout.dropKey?.map fun layout =>
    { layout with
      key := layout.outerKeys.head?.join
      outerKeys := layout.outerKeys.tail
      keyAllowed := false }.push token

/- The comma between the parts of a flow collection. -/
def comma? (layout : Layout) : Option Layout :=
  layout.dropKey?.map fun layout =>
    (layout.allowKey true).push .flowEntry

/- The indicator of an entry in a block sequence. -/
def entry? (layout : Layout) (column : Nat) : Option Layout := do
  let layout ← layout.openBlock? column .openBlockSequence
  let layout ← layout.dropKey?
  return (layout.allowKey true).push .blockEntry

/- The indicator of a key. -/
def key? (layout : Layout) (column : Nat) : Option Layout := do
  let layout ← layout.openBlock? column .openBlockMapping
  let layout ← layout.dropKey?
  return (layout.allowKey !layout.inFlow).push .key

/- The indicator of a value, behind the pending key if there is one. -/
def value? (layout : Layout) (column : Nat) : Option Layout :=
  match layout.key with
  | some key =>
      let layout := layout.insert key.position .key
      let layout :=
        layout.openBlock key.start.column key.position .openBlockMapping
      some (({ layout with key := none }.allowKey false).push .value)
  | none =>
      (layout.openBlock? column .openBlockMapping).map fun layout =>
        (layout.allowKey !layout.inFlow).push .value

/- A part of a node that stands in one line and may be a key. -/
def part?
    (layout : Layout)
    (start : Glyph)
    (token : Token) : Option Layout :=
  (layout.noteKey? start).map fun layout =>
    (layout.allowKey false).push token

/- A block scalar, behind which a key may start. -/
def blockScalar? (layout : Layout) (token : Token) : Option Layout :=
  layout.dropKey?.map fun layout =>
    (layout.allowKey true).push token

end Layout

end CoreTally.Yaml
