import CoreTally.Yaml.Glyph

/-
  This file reads block scalars, which keep or fold the lines
  that are indented below their parent.

  Behind the indicator a header may say how many columns the
  lines are indented, and whether the line breaks at the end are
  dropped, cut down to one or kept.

  Key definitions include:
    * `Yaml.Block.Chomping`
    * `Yaml.Block.header?`
    * `Yaml.Block.breaks?`
    * `Yaml.Block.scalar?`
-/

namespace CoreTally.Yaml.Block

------------------------------------------------------------
-- Headers
------------------------------------------------------------

/- What happens to the line breaks at the end. -/
inductive Chomping where
| strip
| clip
| keep
deriving DecidableEq, Repr

/- The chomping indicator at the start of some glyphs. -/
def chomping (glyphs : List Glyph) : Chomping × List Glyph :=
  match charAt glyphs 0 with
  | '+' => (.keep, glyphs.drop 1)
  | '-' => (.strip, glyphs.drop 1)
  | _ => (.clip, glyphs)

/- The digit of the indentation at the start of some glyphs. -/
def increment? (glyphs : List Glyph) : Option (Option Nat × List Glyph) :=
  let c := charAt glyphs 0
  if c = '0' then
    none
  else if c.isDigit then
    some (some (c.toNat - '0'.toNat), glyphs.drop 1)
  else
    some (none, glyphs)

/- The glyphs from the next line on, if nothing but a comment precedes. -/
def endLine? (glyphs : List Glyph) : Option (List Glyph) :=
  let rest := skip isSpacing glyphs
  let rest :=
    if charAt rest 0 == '#' then skip (!endsLine ·) rest else rest
  if isBreak (charAt rest 0) then some (rest.drop 1)
  else if isEnd (charAt rest 0) then some rest
  else none

/- Chomping and indentation, in either order, to the end of the line. -/
def header?
    (glyphs : List Glyph) :
    Option (Chomping × Option Nat × List Glyph) := do
  let (before, rest) := chomping glyphs
  let (increment, rest) ← increment? rest
  let (after, rest) :=
    if before = .clip ∧ increment.isSome then
      chomping rest
    else
      (before, rest)
  let rest ← endLine? rest
  return (after, increment, rest)

------------------------------------------------------------
-- Line Breaks
------------------------------------------------------------

/- A column lies in the indentation, of unknown width at first. -/
def isIndent (indent : Option Nat) (column : Nat) : Bool :=
  match indent with
  | none => true
  | some indent => column < indent

/-
  Take in one empty line. The state holds the line breaks so far
  and the widest indentation among them.
-/
def stepBreak
    (indent : Option Nat)
    (state : List Char × Nat)
    (glyphs : List Glyph) :
    Option (Move (List Char × Nat) (List Char × Nat × List Glyph)) :=
  let (breaks, widest) := state
  let rest := glyphs.dropWhile fun glyph =>
    glyph.char == ' ' && isIndent indent glyph.column
  let widest := max widest (columnOf rest)
  let c := charAt rest 0
  if c == '\t' && isIndent indent (columnOf rest) then
    none
  else if isBreak c then
    some (.next (breaks ++ [c], widest) (rest.drop 1))
  else
    some (.done (breaks, widest, rest))

/- Line breaks, the widest indentation among them, and the rest. -/
def breaks?
    (indent : Option Nat)
    (glyphs : List Glyph) : Option (List Char × Nat × List Glyph) :=
  repeat? (stepBreak indent) ([], 0) glyphs

------------------------------------------------------------
-- Lines
------------------------------------------------------------

/-
  The lines read so far, the line break at the end of the last
  one, the empty lines behind it, and whether the last line
  starts with a space or tab.
-/
structure Lines where
  text : String
  ending : List Char
  empty : List Char
  isSpaced : Bool

namespace Lines

/-
  What comes between the lines so far and another line. Between
  folded lines that start without spaces a line feed is dropped,
  or becomes a space where no empty line follows it.
-/
def joint (lines : Lines) (folded isSpaced : Bool) : List Char :=
  if folded && lines.ending == ['\n'] && !lines.isSpaced && !isSpaced then
    if lines.empty.isEmpty then [' '] else lines.empty
  else
    lines.ending ++ lines.empty

/- The text of all lines with the line breaks at the end. -/
def chomped (lines : Lines) : Chomping → String
| .strip => lines.text
| .clip => lines.text ++ String.ofList lines.ending
| .keep => lines.text ++ String.ofList (lines.ending ++ lines.empty)

end Lines

/- Take in one line and the empty lines behind it. -/
def stepLine
    (folded : Bool)
    (indent : Nat)
    (lines : Lines)
    (glyphs : List Glyph) : Option (Move Lines (Lines × List Glyph)) :=
  if columnOf glyphs ≠ indent ∨ isEnd (charAt glyphs 0) = true then
    some (.done (lines, glyphs))
  else
    let isSpaced := isSpacing (charAt glyphs 0)
    let (line, rest) := spanOf (!endsLine ·) glyphs
    let ending := (Glyph.chars (rest.take 1)).filter isBreak
    match breaks? (some indent) (rest.drop ending.length) with
    | none => none
    | some (empty, _, rest) =>
        let joint := lines.joint folded isSpaced
        let text :=
          lines.text ++ String.ofList (joint ++ Glyph.chars line)
        some (.next ⟨text, ending, empty, isSpaced⟩ rest)

/-
  The block scalar behind an indicator, and the glyphs behind
  it. The parent stands at column `parent`, if there is one.
-/
def scalar?
    (folded : Bool)
    (parent : Option Nat)
    (glyphs : List Glyph) : Option (String × List Glyph) := do
  let (chomping, increment, rest) ← header? glyphs
  let given := increment.map fun n => parent.getD 0 + n
  let (empty, widest, rest) ← breaks? given rest
  let least := max 1 ((parent.map (· + 1)).getD 0)
  let indent := given.getD (max widest least)
  let (lines, rest) ←
    repeat? (stepLine folded indent) ⟨"", [], empty, false⟩ rest
  return (lines.chomped chomping, rest)

end CoreTally.Yaml.Block
