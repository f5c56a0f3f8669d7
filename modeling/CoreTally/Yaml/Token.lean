/-
  This file defines the tokens of YAML texts: directives, marks
  of documents, the borders of collections, indicators between
  their parts, and the parts of nodes.

  Key definitions include:
    * `Yaml.ScalarStyle`
    * `Yaml.Token`
-/

namespace CoreTally.Yaml

/- How a scalar is written. -/
inductive ScalarStyle where
| plain
| singleQuoted
| doubleQuoted
| literal
| folded
deriving DecidableEq, Repr

/-
  A token. The suffix of a tag, and the leading part that a
  directive gives to tags, are kept as bytes, which need not be
  a text.
-/
inductive Token where
| version (major minor : Nat)
| tagDirective (handle : String) (leading : List UInt8)
| documentStart
| documentEnd
| openBlockSequence
| openBlockMapping
| closeBlock
| openFlowSequence
| closeFlowSequence
| openFlowMapping
| closeFlowMapping
| blockEntry
| flowEntry
| key
| value
| alias (name : String)
| anchor (name : String)
| tag (handle : String) (suffix : List UInt8)
| scalar (style : ScalarStyle) (text : String)
deriving DecidableEq, Repr

end CoreTally.Yaml
