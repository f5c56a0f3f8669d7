import CoreTally.Count
import Mathlib.Algebra.Order.Ring.Int
import Mathlib.Data.List.Induction

/-
  Saturating sums of counts are exact sums as long as the
  magnitudes of the counts fit the range together, in
  whatever order they are added.

  Key definitions include:
    * `Count.exactTotal`
    * `Count.magnitude`
    * `Count.SumsExactly`

  Key theorems include:
    * `Count.toInt_total`
    * `Count.toInt_total_of_prefixes`
    * `Count.sumsExactly_of_magnitude`
-/

namespace CoreTally

namespace Count

/- The sum of some counts without saturation. -/
def exactTotal (counts : List Count) : Int :=
  (counts.map Int64.toInt).sum

/- The sum of the absolute values of some counts. -/
def magnitude (counts : List Count) : Nat :=
  (counts.map fun count => count.toInt.natAbs).sum

/-
  No partial sum of some counts, from left to right, is moved
  back into the range.
-/
def SumsExactly (counts : List Count) : Prop :=
  ∀ first, first <+: counts →
    (total first).toInt = exactTotal first

------------------------------------------------------------
-- Single Operations
------------------------------------------------------------

/- Saturating sums do not depend on the order. -/
theorem plus_comm
    (a b : Count) :
    a.plus b = b.plus a := by
  simp only [plus, Int.add_comm]

/- A sum inside the range is exact. -/
theorem toInt_plus_of_natAbs
    {a b : Count}
    (hFits : (a.toInt.natAbs + b.toInt.natAbs : Int) ≤ greatest) :
    (a.plus b).toInt = a.toInt + b.toInt := by
  rw [toInt_plus]
  simp only [least, greatest] at hFits ⊢
  omega

/- A difference inside the range is exact. -/
theorem toInt_minus_of_natAbs
    {a b : Count}
    (hFits : (a.toInt.natAbs + b.toInt.natAbs : Int) ≤ greatest) :
    (a.minus b).toInt = a.toInt - b.toInt := by
  rw [toInt_minus]
  simp only [least, greatest] at hFits ⊢
  omega

------------------------------------------------------------
-- Sums
------------------------------------------------------------

@[simp] theorem exactTotal_nil :
    exactTotal [] = 0 := rfl

@[simp] theorem exactTotal_cons
    (count : Count)
    (counts : List Count) :
    exactTotal (count :: counts) =
      count.toInt + exactTotal counts := by
  simp [exactTotal]

@[simp] theorem magnitude_nil :
    magnitude [] = 0 := rfl

@[simp] theorem magnitude_cons
    (count : Count)
    (counts : List Count) :
    magnitude (count :: counts) =
      count.toInt.natAbs + magnitude counts := by
  simp [magnitude]

theorem sum_map_id
    (counts : List Count) :
    (counts.map fun count => id count.toInt).sum =
      exactTotal counts := rfl

theorem sum_map_natAbs
    (counts : List Count) :
    (counts.map fun count => count.toInt.natAbs).sum =
      magnitude counts := rfl

/- A sum is at most as large as the magnitudes together. -/
theorem natAbs_exactTotal_le
    (counts : List Count) :
    (exactTotal counts).natAbs ≤ magnitude counts := by
  induction counts with
  | nil => simp
  | cons count counts ih =>
      simp only [exactTotal_cons, magnitude_cons]
      omega

/- A part of some counts has no larger magnitude. -/
theorem magnitude_le_of_sublist
    {part counts : List Count}
    (hPart : part.Sublist counts) :
    magnitude part ≤ magnitude counts := by
  induction hPart with
  | slnil => exact Nat.le_refl _
  | cons count _ ih =>
      rw [magnitude_cons]
      omega
  | cons_cons count _ ih =>
      rw [magnitude_cons, magnitude_cons]
      omega

/-
  Adding counts to a start is exact when the magnitudes fit
  the range together.
-/
theorem toInt_foldl_plus
    {start : Count}
    {counts : List Count}
    (hFits :
      (start.toInt.natAbs + magnitude counts : Int) ≤ greatest) :
    (counts.foldl plus start).toInt =
      start.toInt + exactTotal counts := by
  induction counts generalizing start with
  | nil => simp
  | cons count counts ih =>
      rw [magnitude_cons] at hFits
      have hSum :
          (start.plus count).toInt =
            start.toInt + count.toInt := by
        apply toInt_plus_of_natAbs
        omega
      rw [List.foldl_cons, ih, hSum, exactTotal_cons]
      · omega
      · rw [hSum]
        omega

/- A saturating sum of counts that fit together is exact. -/
theorem toInt_total
    {counts : List Count}
    (hFits : (magnitude counts : Int) ≤ greatest) :
    (total counts).toInt = exactTotal counts := by
  have hZero : (0 : Count).toInt = 0 := rfl
  rw [total, toInt_foldl_plus, hZero, Int.zero_add]
  rw [hZero]
  omega

/- A sum is exact as long as no part of it leaves the range. -/
theorem toInt_total_of_prefixes
    {counts : List Count}
    (hRange :
      ∀ first, first <+: counts →
        least ≤ exactTotal first ∧
          exactTotal first ≤ greatest) :
    (total counts).toInt = exactTotal counts := by
  induction counts using List.reverseRecOn with
  | nil => rfl
  | append_singleton counts count ih =>
      have hBefore :=
        ih fun first hFirst =>
          hRange first (hFirst.trans (List.prefix_append _ _))
      have hLast := hRange _ List.prefix_rfl
      have hSum :
          exactTotal (counts ++ [count]) =
            exactTotal counts + count.toInt := by
        simp [exactTotal]
      rw [hSum] at hLast ⊢
      have hTotal :
          total (counts ++ [count]) =
            (total counts).plus count := by
        simp [total]
      rw [hTotal, toInt_plus, hBefore]
      omega

/- Partial sums of counts that fit together are exact, too. -/
theorem sumsExactly_of_magnitude
    {counts : List Count}
    (hFits : (magnitude counts : Int) ≤ greatest) :
    SumsExactly counts := by
  intro first hFirst
  have hPart := magnitude_le_of_sublist hFirst.sublist
  apply toInt_total
  omega

end Count

end CoreTally
