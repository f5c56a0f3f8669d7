import CoreTally.Json.Number

/-
  This file defines JSON values. Objects keep their members in
  order and with repetitions, and a string whose escapes leave
  half of a surrogate pair is kept as a string without text.

  Key definitions include:
    * `Json`
    * `Json.str`
    * `Json.int`
    * `Json.record`
    * `Json.member?`
-/

namespace CoreTally

/- A JSON value. -/
inductive Json where
| null
| bool (value : Bool)
| number (value : Json.Number)
| string (text : Option String)
| array (items : List Json)
| object (members : List (Option String × Json))
deriving Inhabited

namespace Json

/- The string with a given text. -/
def str (text : String) : Json :=
  .string (some text)

/- An integer. -/
def int (n : Int) : Json :=
  .number (Number.ofInt n)

/- A natural number. -/
def nat (n : Nat) : Json :=
  int n

/- An object with the given members. -/
def record (members : List (String × Json)) : Json :=
  .object (members.map fun (name, value) => (some name, value))

/- A value, or null. -/
def ofOption (value : Option Json) : Json :=
  value.getD .null

/- The last member of an object with a given name. -/
def member? (name : String) : Json → Option Json
| .object members =>
    (members.reverse.find? fun entry => entry.1 == some name).map
      Prod.snd
| _ => none

end Json

end CoreTally
