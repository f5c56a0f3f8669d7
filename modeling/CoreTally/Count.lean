/-
  This file defines counter values and their saturating
  arithmetic: a result outside the signed 64-bit range
  becomes the nearest end of that range.

  Key definitions include:
    * `Count`
    * `Count.plus`
    * `Count.minus`
    * `Count.times`
    * `Count.ofWork?`

  Key theorems include:
    * `Count.toInt_clamp`
    * `Count.toInt_plus`
    * `Count.toInt_minus`
    * `Count.toInt_times`
-/

namespace CoreTally

/- A counter value. -/
abbrev Count :=
  Int64

namespace Count

/- The smallest count. -/
def least : Int := -9223372036854775808

/- The largest count. -/
def greatest : Int := 9223372036854775807

/- The count nearest to an integer. -/
def clamp (n : Int) : Count :=
  Int64.ofInt (max least (min n greatest))

/- Saturating sum. -/
def plus (a b : Count) : Count :=
  clamp (a.toInt + b.toInt)

/- Saturating difference. -/
def minus (a b : Count) : Count :=
  clamp (a.toInt - b.toInt)

/- Saturating product. -/
def times (a b : Count) : Count :=
  clamp (a.toInt * b.toInt)

/- The sum of a list of counts, saturating from left to right. -/
def total (counts : List Count) : Count :=
  counts.foldl plus 0

/- An amount of work as a count, when it fits one. -/
def ofWork? (work : UInt64) : Option Count :=
  if (work.toNat : Int) ≤ greatest then
    some (Int64.ofNat work.toNat)
  else
    none

/- Clamping moves a value to the nearest end of the range. -/
theorem toInt_clamp (n : Int) :
    (clamp n).toInt = max least (min n greatest) := by
  apply Int64.toInt_ofInt_of_le <;> simp only [least, greatest] <;> omega

/- A value inside the range is kept. -/
theorem toInt_clamp_of_mem
    {n : Int}
    (hLeast : least ≤ n)
    (hGreatest : n ≤ greatest) :
    (clamp n).toInt = n := by
  rw [toInt_clamp]
  omega

/- No count is below the range. -/
theorem least_le_toInt (a : Count) : least ≤ a.toInt := by
  have := a.le_toInt
  simp only [least]
  omega

/- No count is above the range. -/
theorem toInt_le_greatest (a : Count) : a.toInt ≤ greatest := by
  have := a.toInt_lt
  simp only [greatest]
  omega

/- Clamping the value of a count gives the count back. -/
@[simp] theorem clamp_toInt (a : Count) : clamp a.toInt = a := by
  apply Int64.toInt_inj.mp
  exact toInt_clamp_of_mem (least_le_toInt a) (toInt_le_greatest a)

/- A sum is the exact sum, moved into the range. -/
theorem toInt_plus (a b : Count) :
    (a.plus b).toInt = max least (min (a.toInt + b.toInt) greatest) :=
  toInt_clamp _

/- A difference is the exact difference, moved into the range. -/
theorem toInt_minus (a b : Count) :
    (a.minus b).toInt = max least (min (a.toInt - b.toInt) greatest) :=
  toInt_clamp _

/- A product is the exact product, moved into the range. -/
theorem toInt_times (a b : Count) :
    (a.times b).toInt = max least (min (a.toInt * b.toInt) greatest) :=
  toInt_clamp _

@[simp] theorem plus_zero (a : Count) : a.plus 0 = a := by
  simp [plus]

@[simp] theorem zero_plus (a : Count) : plus 0 a = a := by
  simp [plus]

@[simp] theorem minus_zero (a : Count) : a.minus 0 = a := by
  simp [minus]

end Count

end CoreTally
