import CoreTally.Basic
import CoreTally.Files
import CoreTally.Topology.Kind

/-
  This file lists what can go wrong, together with the words
  and the status code of every failure.

  Key definitions include:
    * `Status`
    * `BackendError`
    * `ArgumentProblem`
    * `ConfigProblem`
    * `Error`
    * `Error.status`
    * `Error.category`
    * `Error.message`
-/

namespace CoreTally

------------------------------------------------------------
-- Status Codes
------------------------------------------------------------

/- Zero is success, and a failure is negative. -/
abbrev Status :=
  Int32

namespace Status

/- An argument is invalid. -/
def invalid : Status := -1

/- A call to the operating system failed. -/
def system : Status := -3

/- There is no such event. -/
def noEvent : Status := -7

/- The event set is not running. -/
def notRunning : Status := -9

/- The event set is running already. -/
def running : Status := -10

/- There is no such event set. -/
def noEventSet : Status := -11

/- Any other failure. -/
def other : Status := -14

end Status

------------------------------------------------------------
-- Failures of Counter Sources
------------------------------------------------------------

/- A failure with the status code and words of its source. -/
structure BackendError where
  status : Status
  text : String
deriving DecidableEq, Repr

/- The words, followed by the status code. -/
def BackendError.message (e : BackendError) : String :=
  s!"{e.text} (status {e.status})"

------------------------------------------------------------
-- Rejected Arguments
------------------------------------------------------------

/- Why a request cannot be carried out. -/
inductive ArgumentProblem where
| emptyEventSet (set : EventSet)
| unnamedEvent (code : EventCode) (cause : BackendError)
| valueCount (set : EventSet) (events values : Nat)
| noThread (unit : UnitId)
| unreadableStat (path : String) (cause : FileError)
| malformedStat (path : String)
| unknownNode (node : Nat)
| notThread (kind : ComponentKind) (id : UInt32)
| other (text : String)
deriving DecidableEq, Repr

/- The words for a rejected argument. -/
def ArgumentProblem.message : ArgumentProblem → String
| emptyEventSet set => s!"event set {set} has no events"
| unnamedEvent code cause =>
    s!"no name for event {code.text}: {cause.message}"
| valueCount set events values =>
    s!"event set {set} has {events} events, got {values} values"
| noThread unit => s!"no hardware thread {unit} in the topology"
| unreadableStat path cause => s!"cannot read {path}: {cause.message}"
| malformedStat path => s!"malformed stat line in {path}"
| unknownNode node => s!"{positionText node} is not part of the topology"
| notThread kind id => s!"{kind.label} {id} is not a hardware thread"
| other text => text

------------------------------------------------------------
-- Rejected Configurations
------------------------------------------------------------

/- Why a configuration is refused. -/
inductive ConfigProblem where
| noEvents
| blankEvent
| duplicateEvent (name : String)
| noUnits
| noWork
| emptyTopology
| unitOutside (unit : UnitId) (threads : Nat)
| notYaml
| unreadable (path : String) (cause : FileError)
| other (text : String)
deriving DecidableEq, Repr

/- The words for a refused configuration. -/
def ConfigProblem.message : ConfigProblem → String
| noEvents => "at least one counter event is required"
| blankEvent => "event names must not be empty"
| duplicateEvent name => s!"duplicate event '{name}'"
| noUnits => "simulation needs at least one unit"
| noWork => "work_per_step must be greater than 0"
| emptyTopology =>
    "synthetic topology dimensions must be greater than 0"
| unitOutside unit threads =>
    s!"unit {unit} is outside the synthetic topology " ++
      s!"({threads} hardware threads)"
| notYaml => "Failed to parse YAML config"
| unreadable path cause =>
    s!"Failed to read config file {path}: {cause.message}"
| other text => text

------------------------------------------------------------
-- Rejected Topologies
------------------------------------------------------------

/- Why no topology can be built. -/
inductive TopologyProblem where
| noCpus (root : String)
| other (text : String)
deriving DecidableEq, Repr

/- The words for a topology that cannot be built. -/
def TopologyProblem.message : TopologyProblem → String
| noCpus root => s!"no CPUs found under {root}"
| other text => text

------------------------------------------------------------
-- Errors
------------------------------------------------------------

/- Everything that can go wrong. -/
inductive Error where
| backend (cause : BackendError)
| argument (problem : ArgumentProblem)
| config (problem : ConfigProblem)
| topology (problem : TopologyProblem)
| file (cause : FileError)
| serialization
deriving DecidableEq, Repr

namespace Error

/-
  The status code of an error. A counter source's own code is
  passed on as it is.
-/
def status : Error → Status
| backend cause => cause.status
| argument _ => Status.invalid
| file _ => Status.system
| config _ => Status.other
| topology _ => Status.other
| serialization => Status.other

/- The error comes from a counter source. -/
def isBackend : Error → Bool
| backend _ => true
| _ => false

/- The name of the kind of error. -/
def category : Error → String
| backend _ => "backend"
| argument _ => "validation"
| config _ => "config"
| topology _ => "topology"
| file _ => "io"
| serialization => "serialization"

/- The words for an error. -/
def message : Error → String
| backend cause => "Counter backend error: " ++ cause.message
| argument problem => "Invalid argument: " ++ problem.message
| config problem => "Configuration error: " ++ problem.message
| topology problem => "Topology error: " ++ problem.message
| file cause => "IO error: " ++ cause.message
| serialization => "Serialization error"

end Error

end CoreTally
