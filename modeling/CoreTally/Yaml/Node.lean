import CoreTally.Yaml.Token

/-
  This file defines the nodes of YAML documents. A node may have
  an anchor, and an alias elsewhere stands for that node. The
  node may be one that the alias lies in, so an alias only keeps
  the number of the anchor.

  Key definitions include:
    * `Yaml.Node`
    * `Yaml.Document`
    * `Yaml.Document.resolve`
-/

namespace CoreTally.Yaml

/-
  A scalar, a sequence, a mapping, or an alias to an anchor.
  Tags are in full, and a tag that is no text is left out.
-/
inductive Node where
| scalar (tag : Option String) (style : ScalarStyle) (text : String)
| sequence (tag : Option String) (items : List Node)
| mapping (tag : Option String) (entries : List (Node × Node))
| alias (anchor : Nat)
deriving Inhabited

/- The node where nothing is written. -/
def Node.absent : Node :=
  .scalar none .plain ""

/- A document, empty or not, and its nodes with an anchor. -/
structure Document where
  root : Option Node
  anchored : List (Nat × Node)

/- The node that a node stands for. -/
def Document.resolve (document : Document) : Node → Node
| .alias anchor => (document.anchored.lookup anchor).getD (.alias anchor)
| node => node

end CoreTally.Yaml
