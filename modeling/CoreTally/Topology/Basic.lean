import CoreTally.Basic
import CoreTally.Topology.Attribute
import CoreTally.Topology.Kind

/-
  This file defines hardware topologies: components such as
  machines, sockets, caches, cores and hardware threads, which
  know their parent and their children.

  The components of a topology are numbered in the order in
  which they were added. A child is added below a component
  that is already there, so its number is the larger one.

  Key definitions include:
    * `Component`
    * `Topology`
    * `Topology.addRoot`
    * `Topology.addChild?`
    * `Topology.setAttribute`
    * `Topology.depth`
    * `Topology.Draft`
    * `Topology.uniform`
-/

namespace CoreTally

------------------------------------------------------------
-- Components
------------------------------------------------------------

/-
  A component of a topology. Its number is that of the hardware
  thread, the socket, and so on, and need not be its position.
-/
structure Component where
  kind : ComponentKind
  id : UInt32
  name : String
  parent : Option Nat := none
  children : Array Nat := #[]
  attributes : Attributes := .empty

------------------------------------------------------------
-- Topologies
------------------------------------------------------------

/- Components by position. -/
structure Topology where
  components : Array Component
deriving Inhabited

namespace Topology

/- The topology without components. -/
def empty : Topology :=
  ⟨#[]⟩

/- Number of components. -/
def size (t : Topology) : Nat :=
  t.components.size

/- The component at a position. -/
def get? (t : Topology) (node : Nat) : Option Component :=
  t.components[node]?

/- The parent of the component at a position. -/
def parent? (t : Topology) (node : Nat) : Option Nat :=
  (t.get? node).bind Component.parent

/- The children of the component at a position, oldest first. -/
def children (t : Topology) (node : Nat) : List Nat :=
  match t.get? node with
  | none => []
  | some component => component.children.toList

/- Add a component at the next position. -/
def push (t : Topology) (component : Component) : Topology :=
  ⟨t.components.push component⟩

/- Change the component at a position. -/
def modify
    (t : Topology)
    (node : Nat)
    (change : Component → Component) : Topology :=
  ⟨t.components.modify node change⟩

/- Add a component without a parent. -/
def addRoot
    (t : Topology)
    (kind : ComponentKind)
    (id : UInt32)
    (name : String) : Topology :=
  t.push { kind, id, name }

/- Add a component below one that is there. -/
def attach
    (t : Topology)
    (parent : Nat)
    (kind : ComponentKind)
    (id : UInt32)
    (name : String) : Topology :=
  let node := t.size
  (t.push { kind, id, name, parent := some parent }).modify parent
    fun component =>
      { component with children := component.children.push node }

/- Add a component below another one, if there is such a one. -/
def addChild?
    (t : Topology)
    (parent : Nat)
    (kind : ComponentKind)
    (id : UInt32)
    (name : String) : Option Topology :=
  if parent < t.size then
    some (t.attach parent kind id name)
  else
    none

/- The words for a parent that is not there. -/
def missingParent (parent : Nat) : String :=
  s!"parent {positionText parent} is not part of this topology"

/- Set an attribute, in place of an older one of the same name. -/
def setAttribute
    (t : Topology)
    (node : Nat)
    (name : String)
    (value : AttributeValue) : Topology :=
  t.modify node fun component =>
    { component with
      attributes := component.attributes.insert name value }

/- An attribute of a component. -/
def attribute?
    (t : Topology)
    (node : Nat)
    (name : String) : Option AttributeValue :=
  (t.get? node).bind fun component => component.attributes.find? name

/- The number of steps from a component up to its root. -/
def depth (t : Topology) (node : Nat) : Nat :=
  match t.parent? node with
  | none => 0
  | some parent => if parent < node then t.depth parent + 1 else 1
termination_by node

------------------------------------------------------------
-- Uniform Machines
------------------------------------------------------------

/-
  A machine under construction, with the numbers of the next
  core and of the next hardware thread.
-/
structure Draft where
  topology : Topology
  nextCore : UInt32 := 0
  nextThread : UInt32 := 0

namespace Draft

/- Add the next hardware thread below a core. -/
def addThread (core : Nat) (draft : Draft) : Draft :=
  { draft with
    topology :=
      draft.topology.attach core .thread draft.nextThread
        s!"cpu {draft.nextThread}"
    nextThread := draft.nextThread + 1 }

/- Add the next core with its hardware threads below a socket. -/
def addCore (threads chip : Nat) (draft : Draft) : Draft :=
  let core := draft.topology.size
  let withCore :=
    { draft with
      topology :=
        draft.topology.attach chip .core draft.nextCore
          s!"core {draft.nextCore}" }
  let complete :=
    (List.range threads).foldl (fun draft _ => draft.addThread core)
      withCore
  { complete with nextCore := complete.nextCore + 1 }

/- Add a socket with its cores below a machine. -/
def addSocket
    (cores threads root : Nat)
    (socket : UInt32)
    (draft : Draft) : Draft :=
  let chip := draft.topology.size
  let withChip :=
    { draft with
      topology :=
        draft.topology.attach root .chip socket s!"package {socket}" }
  (List.range cores).foldl (fun draft _ => draft.addCore threads chip)
    withChip

end Draft

/-
  A machine of alike sockets with alike cores, the cores and the
  threads numbered through from 0. Its root is component 0.
-/
def uniform (sockets cores threads : UInt32) : Topology :=
  ((List.range sockets.toNat).foldl
    (fun draft socket =>
      draft.addSocket cores.toNat threads.toNat 0 (.ofNat socket))
    { topology := empty.addRoot .node 0 "machine" : Draft }).topology

end Topology

end CoreTally
