import CoreTally.Text.Numeral
import CoreTally.Text.Pieces

/-
  This file reads lists of processors such as `0-3,8,10-11`.

  Key definitions include:
    * `CpuList.Range`
    * `CpuList.range?`
    * `CpuList.parse?`
-/

namespace CoreTally.CpuList

/- The processors from one number up to another. -/
structure Range where
  first : UInt32
  last : UInt32
deriving DecidableEq, Repr

namespace Range

/- The processors of a range, ascending. -/
def toList (r : Range) : List UInt32 :=
  (List.range' r.first.toNat (r.last.toNat + 1 - r.first.toNat)).map
    UInt32.ofNat

/- A processor lies in a range. -/
def Mem (cpu : UInt32) (r : Range) : Prop :=
  r.first ≤ cpu ∧ cpu ≤ r.last

end Range

/-
  One piece of a list: a number, or two numbers with a dash in
  between of which the second is no smaller.
-/
def range? (piece : List Char) : Option Range :=
  match Text.cutOnce? '-' piece with
  | none => (Text.uint32? piece).map fun cpu => ⟨cpu, cpu⟩
  | some (before, after) =>
      match Text.uint32? (Text.trim before),
          Text.uint32? (Text.trim after) with
      | some first, some last =>
          if first ≤ last then some ⟨first, last⟩ else none
      | _, _ => none

/- The pieces between commas that are not blank, trimmed. -/
def pieces (text : List Char) : List (List Char) :=
  ((Text.cut (· == ',') text).map Text.trim).filter (!·.isEmpty)

/- Numbers in ascending order, each one once. -/
def ascending (cpus : List UInt32) : List UInt32 :=
  (cpus.mergeSort fun a b => a ≤ b).eraseReps

/-
  The processors in a list, ascending and without repetition.
  A blank text is no list, but blank pieces are passed over.
-/
def parse? (text : String) : Option (List UInt32) :=
  let trimmed := Text.trim text.toList
  if trimmed.isEmpty then
    none
  else
    ((pieces trimmed).mapM range?).map fun ranges =>
      ascending (ranges.flatMap Range.toList)

end CoreTally.CpuList
