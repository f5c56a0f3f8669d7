import CoreTally.Text.Blank

/-
  This file cuts texts into pieces: at a separator, into lines,
  and into words.

  Key definitions include:
    * `Text.cut`
    * `Text.cutOnce?`
    * `Text.lines`
    * `Text.words`

  Key theorems include:
    * `Text.cut_eq_splitOnP`
    * `Text.cutOnce?_eq_some_iff`
    * `Text.intercalate_cons`
-/

namespace CoreTally.Text

------------------------------------------------------------
-- Separators
------------------------------------------------------------

/- The pieces between the separators, empty ones included. -/
def cut (separates : Char → Bool) : List Char → List (List Char)
| [] => [[]]
| c :: rest =>
    if separates c then
      [] :: cut separates rest
    else
      match cut separates rest with
      | [] => [[c]]
      | piece :: pieces => (c :: piece) :: pieces

/- The texts before and after the first separator. -/
def cutOnce?
    (separator : Char) :
    List Char → Option (List Char × List Char)
| [] => none
| c :: rest =>
    if c = separator then
      some ([], rest)
    else
      (cutOnce? separator rest).map fun (before, after) =>
        (c :: before, after)

/- The text after the last separator. -/
def afterLast?
    (separator : Char) :
    List Char → Option (List Char)
| [] => none
| c :: rest =>
    match afterLast? separator rest with
    | some after => some after
    | none => if c = separator then some rest else none

/- The pieces are those that the library splits a list into. -/
theorem cut_eq_splitOnP
    (separates : Char → Bool)
    (text : List Char) :
    cut separates text = text.splitOnP separates := by
  induction text with
  | nil => rfl
  | cons c text ih =>
      have hSome := List.splitOnP_ne_nil separates text
      rw [cut, List.splitOnP_cons_eq_if_modifyHead, ih]
      split
      · rfl
      · split
        · contradiction
        · rename_i hPieces
          rw [hPieces]
          rfl

theorem cutOnce?_eq_none_iff
    (separator : Char)
    (text : List Char) :
    cutOnce? separator text = none ↔ separator ∉ text := by
  induction text with
  | nil => simp [cutOnce?]
  | cons c text ih =>
      rw [cutOnce?, List.mem_cons, not_or, ← ih]
      by_cases hHere : c = separator
      · simp [hHere]
      · simp [hHere, Ne.symm hHere]

theorem cutOnce?_append_cons
    {separator : Char}
    {before : List Char}
    (hBefore : separator ∉ before)
    (after : List Char) :
    cutOnce? separator (before ++ separator :: after) =
      some (before, after) := by
  induction before with
  | nil => simp [cutOnce?]
  | cons c before ih =>
      rw [List.mem_cons, not_or] at hBefore
      rw [List.cons_append, cutOnce?, if_neg (Ne.symm hBefore.1),
        ih hBefore.2]
      rfl

/- A text is cut at the first separator. -/
theorem cutOnce?_eq_some_iff
    (separator : Char)
    (text before after : List Char) :
    cutOnce? separator text = some (before, after) ↔
      separator ∉ before ∧ text = before ++ separator :: after := by
  constructor
  · intro hCut
    induction text generalizing before with
    | nil => contradiction
    | cons c text ih =>
        rw [cutOnce?] at hCut
        split at hCut
        · rename_i hHere
          cases hCut
          exact ⟨List.not_mem_nil, by rw [hHere]; rfl⟩
        · rename_i hOther
          rcases Option.map_eq_some_iff.mp hCut with
            ⟨⟨rest, _⟩, hRest, ⟨⟩⟩
          rcases ih rest hRest with ⟨hBefore, rfl⟩
          refine ⟨?_, rfl⟩
          rw [List.mem_cons, not_or]
          exact ⟨Ne.symm hOther, hBefore⟩
  · rintro ⟨hBefore, rfl⟩
    exact cutOnce?_append_cons hBefore after

/- A separator stands in front of all texts but the first. -/
theorem intercalate_cons
    (separator text : List Char)
    (texts : List (List Char)) :
    separator.intercalate (text :: texts) =
      text ++ texts.flatMap (separator ++ ·) := by
  induction texts generalizing text with
  | nil => simp [List.intercalate]
  | cons next texts ih =>
      rw [List.intercalate_cons_cons, ih, List.flatMap_cons,
        List.append_assoc, List.append_assoc]

------------------------------------------------------------
-- Lines
------------------------------------------------------------

/- A line without the carriage return before its line feed. -/
def dropReturn (line : List Char) : List Char :=
  if line.getLast? = some '\r' then line.dropLast else line

/-
  The lines of a text. A line feed ends a line, a carriage
  return directly before it is dropped, and no empty line
  follows the last line feed.
-/
def lines (text : List Char) : List (List Char) :=
  let pieces := cut (· == '\n') text
  let ended := pieces.dropLast.map dropReturn
  match pieces.getLast? with
  | none => ended
  | some [] => ended
  | some last => ended ++ [last]

------------------------------------------------------------
-- Words
------------------------------------------------------------

/- The longest pieces without blanks, in order. -/
def words (text : List Char) : List (List Char) :=
  (cut isBlank text).filter (!·.isEmpty)

end CoreTally.Text
