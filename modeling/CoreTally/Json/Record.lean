import CoreTally.Fields
import CoreTally.Json.Basic

/-
  This file reads typed values from JSON values.

  A record with named fields is read from an object or from an
  array. In an object the fields stand in any order, a field
  stands at most once, and members with other names are passed
  over. An array holds the fields in order and nothing beyond
  them; the last ones may be missing.

  Key definitions include:
    * `Json.fields?`
    * `Json.integer?`
    * `Json.uint32?`
    * `Json.int64?`
    * `Json.list?`
-/

namespace CoreTally.Json

------------------------------------------------------------
-- Scalars
------------------------------------------------------------

/- A truth value. -/
def bool? : Json → Option Bool
| .bool value => some value
| _ => none

/- A text. -/
def text? : Json → Option String
| .string text => text
| _ => none

/- An integer. -/
def integer? : Json → Option Int
| .number n => n.integer?
| _ => none

/- An integer between two bounds. -/
def between? (least greatest : Int) (value : Json) : Option Int :=
  value.integer?.filter fun n => least ≤ n && n ≤ greatest

/- An unsigned 32-bit integer. -/
def uint32? (value : Json) : Option UInt32 :=
  (value.between? 0 4294967295).map fun n => UInt32.ofNat n.toNat

/- An unsigned 64-bit integer. -/
def uint64? (value : Json) : Option UInt64 :=
  (value.between? 0 18446744073709551615).map fun n =>
    UInt64.ofNat n.toNat

/- A signed 32-bit integer. -/
def int32? (value : Json) : Option Int32 :=
  (value.between? (-2147483648) 2147483647).map Int32.ofInt

/- A signed 64-bit integer. -/
def int64? (value : Json) : Option Int64 :=
  (value.between? (-9223372036854775808) 9223372036854775807).map
    Int64.ofInt

------------------------------------------------------------
-- Lists and Records
------------------------------------------------------------

/- An array whose items are all read alike. -/
def list?
    {α : Type}
    (item? : Json → Option α) : Json → Option (List α)
| .array items => items.mapM item?
| _ => none

/-
  The values of the named fields in order, with none for a
  missing one.
-/
def fields? (names : List String) : Json → Option (List (Option Json))
| .object members =>
    if members.all fun (key, _) => key.isSome then
      names.mapM fun name => Fields.unique? members (some name)
    else
      none
| .array items =>
    if items.length ≤ names.length then
      some (items.map some ++
        List.replicate (names.length - items.length) none)
    else
      none
| _ => none

/- The values of the named fields, none of them missing. -/
def allFields? (names : List String) (value : Json) : Option (List Json) :=
  (value.fields? names).bind fun values => values.mapM id

end CoreTally.Json
