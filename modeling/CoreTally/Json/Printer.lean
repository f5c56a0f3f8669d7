import CoreTally.Json.Basic

/-
  This file writes JSON texts, in one line without blanks or
  with one line for every value and two blanks of indentation
  for every open container.

  Key definitions include:
    * `Json.escape`
    * `Json.quote`
    * `Json.compact`
    * `Json.pretty`
-/

namespace CoreTally.Json

------------------------------------------------------------
-- Strings
------------------------------------------------------------

/- A digit in lower-case hexadecimal. -/
def hexDigit (n : Nat) : Char :=
  Nat.digitChar (n % 16)

/-
  A character inside quotes. Quotes, backslashes and control
  characters are escaped, in short form where there is one.
-/
def escape (c : Char) : List Char :=
  if c = '"' then ['\\', '"']
  else if c = '\\' then ['\\', '\\']
  else if c = '\x08' then ['\\', 'b']
  else if c = '\x0c' then ['\\', 'f']
  else if c = '\n' then ['\\', 'n']
  else if c = '\r' then ['\\', 'r']
  else if c = '\t' then ['\\', 't']
  else if c.toNat < 0x20 then
    ['\\', 'u', '0', '0', hexDigit (c.toNat / 16), hexDigit c.toNat]
  else [c]

/- A text in quotes. -/
def quote (text : String) : String :=
  String.ofList ('"' :: text.toList.flatMap escape ++ ['"'])

/- The text of a string, empty for one without text. -/
def textOf (text : Option String) : String :=
  text.getD ""

------------------------------------------------------------
-- One Line
------------------------------------------------------------

mutual

/- A value in one line without blanks. -/
def compact : Json → String
| .null => "null"
| .bool true => "true"
| .bool false => "false"
| .number n => String.ofList n.text
| .string text => quote (textOf text)
| .array items => "[" ++ ",".intercalate (compactItems items) ++ "]"
| .object members =>
    "\x7b" ++ ",".intercalate (compactMembers members) ++ "\x7d"

/- The items of an array. -/
def compactItems : List Json → List String
| [] => []
| item :: rest => compact item :: compactItems rest

/- The members of an object. -/
def compactMembers : List (Option String × Json) → List String
| [] => []
| (name, value) :: rest =>
    (quote (textOf name) ++ ":" ++ compact value) :: compactMembers rest

end

------------------------------------------------------------
-- Indented
------------------------------------------------------------

/- The start of a line inside `depth` containers. -/
def newLine (depth : Nat) : String :=
  String.ofList ('\n' :: List.replicate (2 * depth) ' ')

/-
  Parts between brackets, each on a line of its own. Without
  parts the brackets stand side by side.
-/
def block
    (opening closing : String)
    (depth : Nat) : List String → String
| [] => opening ++ closing
| parts =>
    opening ++ newLine (depth + 1) ++
      ("," ++ newLine (depth + 1)).intercalate parts ++
      newLine depth ++ closing

mutual

/- A value inside `depth` containers. -/
def indented (depth : Nat) : Json → String
| .null => "null"
| .bool true => "true"
| .bool false => "false"
| .number n => String.ofList n.text
| .string text => quote (textOf text)
| .array items =>
    block "[" "]" depth (indentedItems (depth + 1) items)
| .object members =>
    block "\x7b" "\x7d" depth (indentedMembers (depth + 1) members)

/- The items of an array. -/
def indentedItems (depth : Nat) : List Json → List String
| [] => []
| item :: rest => indented depth item :: indentedItems depth rest

/- The members of an object. -/
def indentedMembers
    (depth : Nat) :
    List (Option String × Json) → List String
| [] => []
| (name, value) :: rest =>
    (quote (textOf name) ++ ": " ++ indented depth value) ::
      indentedMembers depth rest

end

/- A value with one line for every value inside it. -/
def pretty (value : Json) : String :=
  indented 0 value

end CoreTally.Json
