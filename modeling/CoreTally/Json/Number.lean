import CoreTally.Text.Numeral

/-
  This file defines the numbers of JSON texts as they are
  written, and what they denote: an integer of at most 64 bits,
  or else a floating-point value.

  Key definitions include:
    * `Json.Number`
    * `Json.Number.ofInt`
    * `Json.Number.text`
    * `Json.Number.integer?`
    * `Json.Number.float?`
-/

namespace CoreTally.Json

/-
  A number as written: sign, digits of the whole part, digits
  of the fraction and the exponent with its sign.
-/
structure Number where
  negative : Bool
  whole : List Char
  fraction : Option (List Char)
  exponent : Option (Bool × List Char)
deriving DecidableEq, Repr

namespace Number

------------------------------------------------------------
-- Writing
------------------------------------------------------------

/- An integer as a number. -/
def ofInt (n : Int) : Number where
  negative := n < 0
  whole := Nat.toDigits 10 n.natAbs
  fraction := none
  exponent := none

/- The characters of a number. -/
def text (n : Number) : List Char :=
  let sign := if n.negative then ['-'] else []
  let fraction :=
    match n.fraction with
    | none => []
    | some digits => '.' :: digits
  let exponent :=
    match n.exponent with
    | none => []
    | some (negative, digits) =>
        'e' :: (if negative then ['-'] else []) ++ digits
  sign ++ n.whole ++ fraction ++ exponent

------------------------------------------------------------
-- Integers
------------------------------------------------------------

/-
  The integer a number denotes. A fraction or an exponent makes
  a number no integer, and so do a minus sign before zero and a
  value beyond the signed and unsigned 64-bit ranges.
-/
def integer? (n : Number) : Option Int :=
  match n.fraction, n.exponent with
  | none, none =>
      let size := Text.digitsValue 10 n.whole
      if n.negative then
        if 0 < size ∧ size ≤ 9223372036854775808 then
          some (-(size : Int))
        else
          none
      else if size ≤ 18446744073709551615 then
        some (size : Int)
      else
        none
  | _, _ => none

------------------------------------------------------------
-- Floating-Point Values
------------------------------------------------------------

/- A significand of 64 bits and a decimal exponent. -/
structure Scaled where
  significand : Nat
  exponent : Int

/- Another digit that still fits the significand. -/
def Scaled.push? (s : Scaled) (digit : Char) : Option Nat :=
  let next :=
    s.significand * 10 + (Text.digitValue? digit).getD 0
  if next ≤ 18446744073709551615 then some next else none

/-
  Take in the digits of the whole part. From the first digit
  that does not fit on, digits only raise the exponent.
-/
def Scaled.takeWhole : List Char → Scaled → Scaled
| [], s => s
| digit :: rest, s =>
    match s.push? digit with
    | some next => takeWhole rest { s with significand := next }
    | none => { s with exponent := s.exponent + (rest.length + 1) }

/-
  Take in the digits of the fraction. From the first digit that
  does not fit on, digits are dropped.
-/
def Scaled.takeFraction : List Char → Scaled → Scaled
| [], s => s
| digit :: rest, s =>
    match s.push? digit with
    | some next => takeFraction rest ⟨next, s.exponent - 1⟩
    | none => s

/- The largest power of ten that is a finite value. -/
def largestPower : Nat := 308

/- A power of ten. -/
def powerOfTen (n : Nat) : Float :=
  Float.ofScientific 1 false n

/-
  Divide by a power of ten, in steps of the largest power and
  last by the rest.
-/
def divide (value : Float) (power : Nat) : Float :=
  if power ≤ largestPower then
    value / powerOfTen power
  else if value == 0 then
    value
  else
    divide (value / powerOfTen largestPower) (power - largestPower)
termination_by power
decreasing_by
  simp only [largestPower] at *
  omega

/-
  The size of a scaled number. A value beyond the finite ones
  has none.
-/
def Scaled.float? (s : Scaled) : Option Float :=
  let value := s.significand.toUInt64.toFloat
  if s.exponent < 0 then
    some (divide value s.exponent.natAbs)
  else if s.exponent.natAbs ≤ largestPower then
    let product := value * powerOfTen s.exponent.natAbs
    if product.isInf then none else some product
  else if s.significand = 0 then
    some 0
  else
    none

/- The largest exponent that is told apart from larger ones. -/
def largestExponent : Nat := 2147483647

/- The floating-point value a number denotes, if it is finite. -/
def float? (n : Number) : Option Float :=
  let whole := Scaled.takeWhole n.whole ⟨0, 0⟩
  let scaled := Scaled.takeFraction (n.fraction.getD []) whole
  let size :=
    match n.exponent with
    | none => scaled.float?
    | some (negative, digits) =>
        let exponent := Text.digitsValue 10 digits
        if largestExponent < exponent then
          if negative || scaled.significand == 0 then some 0 else none
        else
          let shift : Int := if negative then -exponent else exponent
          Scaled.float? ⟨scaled.significand, scaled.exponent + shift⟩
  size.map fun value => if n.negative then -value else value

end Number

end CoreTally.Json
