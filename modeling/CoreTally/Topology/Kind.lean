/-
  This file lists the kinds of component that a hardware
  topology is made of.

  Key definitions include:
    * `ComponentKind`
    * `ComponentKind.label`
    * `ComponentKind.ofLabel?`
-/

namespace CoreTally

/-
  A component groups machines (`topology`), is a machine
  (`node`), a socket (`chip`), a region in between
  (`subdivision`, `numa`), a physical core, a hardware thread,
  a cache or main memory.
-/
inductive ComponentKind where
| topology
| node
| memory
| chip
| cache
| subdivision
| numa
| core
| thread
deriving DecidableEq, Repr

namespace ComponentKind

/- Every kind once. -/
def all : List ComponentKind :=
  [topology, node, memory, chip, cache, subdivision, numa, core, thread]

/- The lower-case name of a kind. -/
def label : ComponentKind → String
| topology => "topology"
| node => "node"
| memory => "memory"
| chip => "chip"
| cache => "cache"
| subdivision => "subdivision"
| numa => "numa"
| core => "core"
| thread => "thread"

/- The kind with a given name. -/
def ofLabel? (text : String) : Option ComponentKind :=
  all.find? fun kind => kind.label == text

end ComponentKind

end CoreTally
