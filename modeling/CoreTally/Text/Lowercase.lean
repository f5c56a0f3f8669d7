import CoreTally.Text.CaseTable

/-
  This file puts texts in lower case after the rules of Unicode
  without a language: the simple mappings, a capital I with dot
  as an i with a combining dot, and a capital sigma at the end
  of a word in its final form.

  Key definitions include:
    * `Text.lowerChar`
    * `Text.isFinalSigma`
    * `Text.lowercase`
-/

namespace CoreTally.Text

/- A code lies in one of some ranges. -/
def inRanges (ranges : List (Nat × Nat)) (c : Char) : Bool :=
  ranges.any fun (first, last) => first ≤ c.toNat && c.toNat ≤ last

/- The lower-case form of a character by itself. -/
def lowerChar (c : Char) : List Char :=
  if c.toNat < 0x80 then
    [c.toLower]
  else if c = 'İ' then
    ['i', '\u0307']
  else
    match lowerRuns.find? (·.contains c.toNat) with
    | none => [c]
    | some run => [Char.ofNat (c.toNat + run.shift).toNat]

/- The first character that is not passed over has case. -/
def startsCased (text : List Char) : Bool :=
  match text.dropWhile (inRanges ignorableRanges) with
  | [] => false
  | c :: _ => inRanges casedRanges c

/-
  A sigma between the reversed text `before` and the text
  `after` ends a word.
-/
def isFinalSigma (before after : List Char) : Bool :=
  startsCased before && !startsCased after

/- The lower-case form of a text behind the reversed text `before`. -/
def lowerFrom (before : List Char) : List Char → List Char
| [] => []
| c :: after =>
    let lower :=
      if c = 'Σ' then
        if isFinalSigma before after then ['ς'] else ['σ']
      else
        lowerChar c
    lower ++ lowerFrom (c :: before) after

/- The lower-case form of a text. -/
def lowercase (text : String) : String :=
  String.ofList (lowerFrom [] text.toList)

end CoreTally.Text
