import CoreTally.Topology.Basic

/-
  This file visits the components of a topology from one of
  them downward: a component comes before its children, and the
  older child with all that is below it before the younger one.

  Key definitions include:
    * `Topology.subtree`
    * `Topology.preorder`
    * `Topology.find?`
    * `Topology.findAll`
-/

namespace CoreTally.Topology

------------------------------------------------------------
-- Traversal
------------------------------------------------------------

/-
  Visit the components on a stack, each one in turn replaced by
  its children. At most `steps` components are visited.
-/
def visit
    (t : Topology) :
    Nat → List Nat → Array Nat → Array Nat
| 0, _, visited => visited
| _, [], visited => visited
| steps + 1, node :: rest, visited =>
    visit t steps (t.children node ++ rest) (visited.push node)

/-
  The components from a root downward. Every component has one
  place in its tree, so no more are visited than there are.
-/
def subtree (t : Topology) (root : Nat) : List Nat :=
  if root < t.size then
    (visit t t.size [root] #[]).toList
  else
    []

/-
  The same order by recursion: the component, then the order
  below each of its children, which have larger positions.
-/
def preorder (t : Topology) (node : Nat) : List Nat :=
  if _h : node < t.size then
    node ::
      (t.children node).flatMap fun child =>
        if node < child then t.preorder child else []
  else
    []
termination_by t.size - node

------------------------------------------------------------
-- Search
------------------------------------------------------------

/- A component has the given kind. -/
def isOfKind
    (t : Topology)
    (kind : ComponentKind)
    (node : Nat) : Bool :=
  (t.get? node).any fun component => component.kind == kind

/- A component has the given kind and number. -/
def hasKindAndId
    (t : Topology)
    (kind : ComponentKind)
    (id : UInt32)
    (node : Nat) : Bool :=
  (t.get? node).any fun component =>
    component.id == id && component.kind == kind

/- The first component from a root downward with a kind and number. -/
def find?
    (t : Topology)
    (root : Nat)
    (id : UInt32)
    (kind : ComponentKind) : Option Nat :=
  (t.subtree root).find? (t.hasKindAndId kind id)

/- The components of a kind from a root downward. -/
def findAll
    (t : Topology)
    (root : Nat)
    (kind : ComponentKind) : List Nat :=
  (t.subtree root).filter (t.isOfKind kind)

end CoreTally.Topology
