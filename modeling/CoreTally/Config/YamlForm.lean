import CoreTally.Config.Decoding
import CoreTally.Error
import CoreTally.Fields
import CoreTally.Yaml.Document

/-
  This file reads configurations written in YAML.

  Where nothing is written a record has all its defaults and a
  list is empty. Numbers and truth values stand without quotes,
  or in a literal block with the tag of their type. Every scalar
  is a text. A choice among names is a scalar with the name, or
  the name as a tag of nothing.

  Key definitions include:
    * `Yaml.natural?`
    * `Yaml.Document.reader`
    * `Config.ofYaml?`
    * `Config.readYaml`
-/

namespace CoreTally

namespace Yaml

------------------------------------------------------------
-- Scalars
------------------------------------------------------------

/- A truth value in one of three spellings. -/
def bool? (text : String) : Option Bool :=
  if ["true", "True", "TRUE"].contains text then some true
  else if ["false", "False", "FALSE"].contains text then some false
  else none

/- Nothing, in one of its spellings. -/
def isNull (text : String) : Bool :=
  ["", "~", "null", "Null", "NULL"].contains text

/-
  An unsigned number with an optional plus sign: hexadecimal,
  octal or binary behind its mark, or decimal without zeros in
  front.
-/
def natural? (text : String) : Option Nat :=
  match Text.dropPlus text.toList with
  | '0' :: 'x' :: digits => Text.natural? 16 digits
  | '0' :: 'o' :: digits => Text.natural? 8 digits
  | '0' :: 'b' :: digits => Text.natural? 2 digits
  | '0' :: _ :: _ => none
  | digits => Text.natural? 10 digits

/- The tag of a type that every text knows. -/
def typeTag (name : String) : String :=
  "tag:yaml.org,2002:" ++ name

/- The name in a tag that is not in full. -/
def tagName? (tag : Option String) : Option String :=
  tag.bind fun tag =>
    match tag.toList with
    | '!' :: name => some (String.ofList name)
    | _ => none

------------------------------------------------------------
-- Nodes
------------------------------------------------------------

namespace Node

/- The text of a scalar. -/
def text? : Node → Option String
| scalar _ _ text => some text
| _ => none

/- The text of a scalar that may be of the named type. -/
def typed? (name : String) : Node → Option String
| scalar _ .plain text => some text
| scalar (some tag) .literal text =>
    if tag = typeTag name then some text else none
| _ => none

/- A choice among names. -/
def choice? : Node → Option String
| scalar tag style text =>
    match tagName? tag with
    | some name => if style = .plain ∧ isNull text then some name else none
    | none => some text
| _ => none

/- The items of a sequence. -/
def items? : Node → Option (List Node)
| sequence _ items => some items
| scalar _ .plain "" => some []
| _ => none

/- The entries of a mapping. -/
def entries? : Node → Option (List (Node × Node))
| mapping _ entries => some entries
| scalar _ .plain "" => some []
| _ => none

end Node

namespace Document

/- The named values of a mapping, in which every key is a scalar. -/
def fields?
    (document : Document)
    (names : List String)
    (node : Node) : Option (List (Option Node)) := do
  let entries ← (document.resolve node).entries?
  let fields ← entries.mapM fun (key, value) =>
    (document.resolve key).text?.map fun name => (name, value)
  names.mapM (Fields.unique? fields)

/- How the nodes of a document are read. -/
def reader (document : Document) : ValueReader Node where
  fields? := document.fields?
  items? node := (document.resolve node).items?
  bool? node := ((document.resolve node).typed? "bool").bind Yaml.bool?
  natural? bound node :=
    (((document.resolve node).typed? "int").bind Yaml.natural?).filter
      (· < bound)
  text? node := (document.resolve node).text?
  choice? node := (document.resolve node).choice?

end Document

end Yaml

namespace Config

/- The configuration in a YAML text, the defaults in an empty one. -/
def ofYaml? (text : String) : Option Config :=
  (Yaml.Document.parse? text).bind fun document =>
    match document.root with
    | none => some {}
    | some node => document.reader.config? node

/-
  Replace a configuration by the one in a YAML text, and keep
  only the debug mode.
-/
def readYaml (config : Config) (text : String) : Except Error Config :=
  match ofYaml? text with
  | none => .error (.config .notYaml)
  | some new => .ok { new with debug := config.debug }

end Config

end CoreTally
