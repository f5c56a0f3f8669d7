import CoreTally.Decimal.Shortest
import CoreTally.Json.Basic
import CoreTally.Json.Record
import CoreTally.OrderedMap

/-
  This file defines the typed values that topology components
  carry as attributes.

  In JSON a value stands for itself without a type. Reading
  tries the types in turn: a signed integer, an unsigned one, a
  floating-point value, a text and a flag.

  Key definitions include:
    * `AttributeValue`
    * `AttributeValue.asUnsigned?`
    * `AttributeValue.asText?`
    * `AttributeValue.text`
    * `AttributeValue.toJson`
    * `AttributeValue.ofJson?`
    * `Attributes`
-/

namespace CoreTally

/- A typed value. -/
inductive AttributeValue where
| int (value : Int64)
| uint (value : UInt64)
| float (value : Float)
| text (value : String)
| bool (value : Bool)
deriving Inhabited, Repr

namespace AttributeValue

/- The value as an unsigned integer, if it is one. -/
def asUnsigned? : AttributeValue → Option UInt64
| .uint value => some value
| .int value => if 0 ≤ value then some value.toUInt64 else none
| _ => none

/- The value as a text, if it is one. -/
def asText? : AttributeValue → Option String
| .text value => some value
| _ => none

/- A flag as it is printed. -/
def flagText (flag : Bool) : String :=
  if flag then "true" else "false"

/- The value as it is printed. -/
def display : AttributeValue → String
| .int value => toString value.toInt
| .uint value => toString value.toNat
| .float value => Decimal.text value
| .text value => value
| .bool value => flagText value

/- A floating-point value as a JSON number, null if not finite. -/
def floatJson (value : Float) : Json :=
  if value.isNaN || value.isInf then
    .null
  else
    let digits := (Decimal.text value).toList
    let size := digits.dropWhile (· == '-')
    let fraction := (size.dropWhile (· != '.')).drop 1
    .number
      { negative := digits.head? == some '-'
        whole := size.takeWhile (· != '.')
        fraction := some (if fraction.isEmpty then ['0'] else fraction)
        exponent := none }

/- The value in JSON. -/
def toJson : AttributeValue → Json
| .int value => .int value.toInt
| .uint value => .int value.toNat
| .float value => floatJson value
| .text value => .str value
| .bool value => .bool value

/- The value of a JSON number. -/
def ofNumber? (n : Json.Number) : Option AttributeValue :=
  match Json.int64? (.number n), Json.uint64? (.number n) with
  | some value, _ => some (.int value)
  | none, some value => some (.uint value)
  | none, none => n.float?.map .float

/- The value of a JSON value. -/
def ofJson? : Json → Option AttributeValue
| .number n => ofNumber? n
| .string content => content.map .text
| .bool value => some (.bool value)
| _ => none

end AttributeValue

/- Attributes by ascending name. -/
abbrev Attributes :=
  OrderedMap String AttributeValue

end CoreTally
