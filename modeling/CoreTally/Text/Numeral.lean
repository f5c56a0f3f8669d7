/-
  This file reads numerals. A numeral for an unsigned type is a
  row of digits with at most one leading plus sign, and one for
  a signed type may lead with a minus sign instead. A numeral
  outside the range of its type is refused.

  Key definitions include:
    * `Text.natural?`
    * `Text.integer?`
    * `Text.uint32?`
    * `Text.uint64?`
    * `Text.int64?`
-/

namespace CoreTally.Text

------------------------------------------------------------
-- Digits
------------------------------------------------------------

/- The value of a digit or letter digit. -/
def digitValue? (c : Char) : Option Nat :=
  if c.isDigit then
    some (c.toNat - '0'.toNat)
  else if c.isLower then
    some (c.toNat - 'a'.toNat + 10)
  else if c.isUpper then
    some (c.toNat - 'A'.toNat + 10)
  else
    none

/- A digit of the given radix. -/
def isDigitOf (radix : Nat) (c : Char) : Bool :=
  (digitValue? c).any (· < radix)

/- The number denoted by a row of digits. -/
def digitsValue (radix : Nat) (digits : List Char) : Nat :=
  digits.foldl
    (fun value c => value * radix + (digitValue? c).getD 0) 0

/- A non-empty row of digits as a number. -/
def natural? (radix : Nat) (text : List Char) : Option Nat :=
  if !text.isEmpty && text.all (isDigitOf radix) then
    some (digitsValue radix text)
  else
    none

------------------------------------------------------------
-- Signs
------------------------------------------------------------

/- A text without one leading plus sign. -/
def dropPlus : List Char → List Char
| '+' :: rest => rest
| text => text

/- A decimal numeral with an optional sign. -/
def integer? : List Char → Option Int
| '-' :: digits => (natural? 10 digits).map fun n => -(n : Int)
| text => (natural? 10 (dropPlus text)).map fun n => (n : Int)

------------------------------------------------------------
-- Bounded Types
------------------------------------------------------------

/- A decimal numeral below a bound. -/
def below? (bound : Nat) (text : List Char) : Option Nat :=
  (natural? 10 (dropPlus text)).filter (· < bound)

/- An unsigned 32-bit numeral. -/
def uint32? (text : List Char) : Option UInt32 :=
  (below? UInt32.size text).map UInt32.ofNat

/- An unsigned 64-bit numeral. -/
def uint64? (text : List Char) : Option UInt64 :=
  (below? UInt64.size text).map UInt64.ofNat

/- A signed 64-bit numeral. -/
def int64? (text : List Char) : Option Int64 :=
  match integer? text with
  | none => none
  | some n =>
      if -9223372036854775808 ≤ n ∧ n ≤ 9223372036854775807 then
        some (Int64.ofInt n)
      else
        none

end CoreTally.Text
