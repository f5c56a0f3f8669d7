import CoreTally.Topology.Traversal

/-
  This file prints topologies, as an indented listing and as
  rows in JSON.

  Key definitions include:
    * `Topology.line`
    * `Topology.listing`
    * `Topology.toJson`
-/

namespace CoreTally.Topology

/- A component without its place in the tree. -/
def componentText (component : Component) : String :=
  let attributes := component.attributes.toList.map fun (name, value) =>
    " " ++ name ++ "=" ++ value.display
  s!"{component.kind.label} {component.id} ({component.name})" ++
    String.join attributes

/- The indentation of a component in the listing of a root. -/
def indentation (t : Topology) (root node : Nat) : Nat :=
  (t.depth node - t.depth root) * 2

/- The line of a component in the listing of a root. -/
def line (t : Topology) (root node : Nat) : String :=
  match t.get? node with
  | none => ""
  | some component =>
      String.ofList (List.replicate (t.indentation root node) ' ') ++
        componentText component ++ "\n"

/- One line for every component from a root downward. -/
def listing (t : Topology) (root : Nat) : String :=
  String.join ((t.subtree root).map (t.line root))

/- A component as a row in JSON. -/
def row (t : Topology) (node : Nat) (component : Component) : Json :=
  .record
    [("id", .nat component.id.toNat),
      ("kind", .str component.kind.label),
      ("name", .str component.name),
      ("depth", .nat (t.depth node)),
      ("attributes",
        .record (component.attributes.toList.map fun (name, value) =>
          (name, value.toJson)))]

/- The rows of all components from a root downward. -/
def toJson (t : Topology) (root : Nat) : Json :=
  .array ((t.subtree root).filterMap fun node =>
    (t.get? node).map (t.row node))

end CoreTally.Topology
