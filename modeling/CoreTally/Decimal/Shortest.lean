/-
  This file writes floating-point values with the fewest digits
  that read back as the same value. The text never has an
  exponent, and a whole number has no point.

  A value is a mantissa times a power of two. The numbers that
  round to it form an interval, which holds its ends exactly
  when the mantissa is even. For one digit after another the
  two neighbours of the value on that decimal grid are tried,
  in exact arithmetic on natural numbers; of two neighbours in
  the interval the nearer one is taken, and the upper one of
  two that are equally near.

  Key definitions include:
    * `Decimal.Binary`
    * `Decimal.Binary.ofFloat`
    * `Decimal.Digits`
    * `Decimal.shortest`
    * `Decimal.text`
-/

namespace CoreTally.Decimal

------------------------------------------------------------
-- Binary Values
------------------------------------------------------------

/- A mantissa times a power of two. -/
structure Binary where
  mantissa : Nat
  exponent : Int
deriving DecidableEq, Repr

namespace Binary

/- The bits of the fraction of a floating-point value. -/
def fractionBits : Nat := 52

/- The size of a finite value with the given bits. -/
def ofBits (bits : Nat) : Binary :=
  let fraction := bits % Nat.pow 2 fractionBits
  let exponent := bits / Nat.pow 2 fractionBits % 2048
  if exponent = 0 then
    ⟨fraction, -1074⟩
  else
    ⟨fraction + Nat.pow 2 fractionBits, exponent - 1075⟩

/- The size of a finite value. -/
def ofFloat (value : Float) : Binary :=
  ofBits value.toBits.toNat

/-
  Half the gap to the next lower value, in quarters of a unit of
  the mantissa. The gap is halved below a power of two.
-/
def gapBelow (b : Binary) : Nat :=
  if b.mantissa = Nat.pow 2 fractionBits ∧ b.exponent ≠ -1074 then 1 else 2

end Binary

------------------------------------------------------------
-- Decimal Grids
------------------------------------------------------------

/-
  The whole multiples of a power of ten next to a binary value:
  point `c` of the grid is `c * step`, and `x` quarters of a
  unit of the mantissa are `x * unit`.
-/
structure Grid where
  step : Nat
  unit : Nat

namespace Grid

/- The multiples of ten to the power `e`. -/
def ofExponent (b : Binary) (e : Int) : Grid where
  step := Nat.pow 10 e.toNat * Nat.pow 2 (2 - b.exponent).toNat
  unit := Nat.pow 2 (b.exponent - 2).toNat * Nat.pow 10 (-e).toNat

/- The last point not above the value. -/
def below (g : Grid) (b : Binary) : Nat :=
  4 * b.mantissa * g.unit / g.step

/- A point rounds to the value. -/
def roundsTo (g : Grid) (b : Binary) (point : Nat) : Bool :=
  let low := (4 * b.mantissa - b.gapBelow) * g.unit
  let high := (4 * b.mantissa + 2) * g.unit
  let place := point * g.step
  if b.mantissa % 2 = 0 then
    low ≤ place && place ≤ high
  else
    low < place && place < high

/- The neighbour of the value that rounds to it and is nearest. -/
def nearest? (g : Grid) (b : Binary) : Option Nat :=
  let lower := g.below b
  let upper := lower + 1
  let value := 4 * b.mantissa * g.unit
  match g.roundsTo b lower, g.roundsTo b upper with
  | true, true =>
      if value - lower * g.step < upper * g.step - value then
        some lower
      else
        some upper
  | true, false => some lower
  | false, true => some upper
  | false, false => none

end Grid

------------------------------------------------------------
-- Shortest Digits
------------------------------------------------------------

/- A whole number times a power of ten. -/
structure Digits where
  number : Nat
  exponent : Int
deriving DecidableEq, Repr

/- The number of decimal digits. -/
def digitCount (n : Nat) : Nat :=
  (Nat.toDigits 10 n).length

/- The least power of ten that is larger than a positive value. -/
def magnitude (b : Binary) : Int :=
  let numerator := b.mantissa * Nat.pow 2 b.exponent.toNat
  let denominator := Nat.pow 2 (-b.exponent).toNat
  if denominator ≤ numerator then
    digitCount (numerator / denominator)
  else
    1 - (digitCount ((denominator - 1) / numerator) : Int)

/- Drop zeros at the end of a number, at most `limit` of them. -/
def dropZeros : Nat → Digits → Digits
| 0, d => d
| limit + 1, d =>
    if d.number % 10 = 0 then
      dropZeros limit ⟨d.number / 10, d.exponent + 1⟩
    else
      d

/- The most digits that are ever needed. -/
def mostDigits : Nat := 17

/- The shortest digits that round to a positive value. -/
def shortest (b : Binary) : Digits :=
  let top := magnitude b
  let found :=
    (List.range' 1 mostDigits).findSome? fun (count : Nat) =>
      let exponent := top - count
      ((Grid.ofExponent b exponent).nearest? b).map fun number =>
        (⟨number, exponent⟩ : Digits)
  dropZeros (mostDigits + 1) (found.getD ⟨0, 0⟩)

------------------------------------------------------------
-- Text
------------------------------------------------------------

/- Digits in positional notation. -/
def Digits.text (d : Digits) : String :=
  let digits := Nat.toDigits 10 d.number
  if 0 ≤ d.exponent then
    String.ofList (digits ++ List.replicate d.exponent.toNat '0')
  else
    let places := d.exponent.natAbs
    if places < digits.length then
      let whole := digits.length - places
      String.ofList (digits.take whole ++ '.' :: digits.drop whole)
    else
      let zeros := List.replicate (places - digits.length) '0'
      String.ofList ('0' :: '.' :: zeros ++ digits)

/- The bit that is set in negative values. -/
def signBit : Nat := 9223372036854775808

/- The shortest text of a value. -/
def text (value : Float) : String :=
  if value.isNaN then
    "NaN"
  else
    let sign := if signBit ≤ value.toBits.toNat then "-" else ""
    if value.isInf then
      sign ++ "inf"
    else
      let b := Binary.ofFloat value
      if b.mantissa = 0 then
        sign ++ "0"
      else
        sign ++ (shortest b).text

end CoreTally.Decimal
