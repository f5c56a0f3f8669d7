import CoreTally.Basic
import CoreTally.Text.Lowercase

/-
  This file defines configurations: where a topology is read
  from, which events are counted and how readings are stored, a
  simulated workload, and how much is logged.

  Key definitions include:
    * `MeasureMode`
    * `LogLevel`
    * `TopologyPaths`
    * `CounterConfig`
    * `SimulationConfig`
    * `SimulationConfig.totalThreads`
    * `SimulationConfig.route`
    * `LoggingConfig`
    * `Config`
-/

namespace CoreTally

------------------------------------------------------------
-- Choices
------------------------------------------------------------

/-
  How intermediate readings are taken: as running totals, or as
  deltas that zero the counters.
-/
inductive MeasureMode where
| read
| accumulate
deriving DecidableEq, Repr

namespace MeasureMode

/- The name of a mode in configurations. -/
def name : MeasureMode → String
| read => "read"
| accumulate => "accumulate"

/- The name of a mode in messages. -/
def label : MeasureMode → String
| read => "Read"
| accumulate => "Accumulate"

/- The mode with a name, which must be written exactly so. -/
def ofName? (text : String) : Option MeasureMode :=
  if text = "read" then some read
  else if text = "accumulate" then some accumulate
  else none

/- The mode with a name or a short name, in letters of any case. -/
def parse? (text : String) : Option MeasureMode :=
  let lower := Text.lowercase text
  if lower = "accum" then some accumulate else ofName? lower

/- The words for a text that names no mode. -/
def unknown (text : String) : String :=
  "Unknown measure mode: " ++ text

/- A mode is found again by its name. -/
theorem ofName?_name (mode : MeasureMode) :
    ofName? mode.name = some mode := by
  cases mode <;> rfl

end MeasureMode

/- How much is logged. -/
inductive LogLevel where
| trace
| debug
| info
| warn
| error
deriving DecidableEq, Repr

namespace LogLevel

/- The name of a level. -/
def name : LogLevel → String
| trace => "trace"
| debug => "debug"
| info => "info"
| warn => "warn"
| error => "error"

/- The level with a name, which must be written exactly so. -/
def ofName? (text : String) : Option LogLevel :=
  [trace, debug, info, warn, error].find? fun level =>
    level.name == text

/- A level is found again by its name. -/
theorem ofName?_name (level : LogLevel) :
    ofName? level.name = some level := by
  cases level <;> rfl

end LogLevel

------------------------------------------------------------
-- Sections
------------------------------------------------------------

/- Where the description of a machine is read from. -/
structure TopologyPaths where
  sysfsCpuRoot : String := "/sys/devices/system/cpu"
  procfsRoot : String := "/proc"
  meminfo : String := "/proc/meminfo"
deriving DecidableEq, Repr

/- Which events are counted, and how readings are stored. -/
structure CounterConfig where
  events : List String := ["TOT_INS", "TOT_CYC"]
  permanent : Bool := false
  mode : MeasureMode := .read
deriving DecidableEq, Repr

/-
  A simulated workload: the units it visits, the work done on
  each visit, and the machine it runs on.
-/
structure SimulationConfig where
  units : List UnitId := [0, 1, 2]
  workPerStep : UInt64 := 1000000
  sockets : UInt32 := 1
  coresPerSocket : UInt32 := 4
  threadsPerCore : UInt32 := 2
deriving DecidableEq, Repr

namespace SimulationConfig

/- Number of hardware threads of the machine. -/
def totalThreads (simulation : SimulationConfig) : Nat :=
  simulation.sockets.toNat * simulation.coresPerSocket.toNat *
    simulation.threadsPerCore.toNat

/-
  The units in visiting order. A route over several units ends
  on the first one again.
-/
def route (simulation : SimulationConfig) : List UnitId :=
  match simulation.units with
  | first :: second :: rest => first :: second :: rest ++ [first]
  | units => units

end SimulationConfig

/- How much is logged, and in which form. -/
structure LoggingConfig where
  level : LogLevel := .info
  structured : Bool := false
deriving DecidableEq, Repr

------------------------------------------------------------
-- Configurations
------------------------------------------------------------

/- A complete configuration. -/
structure Config where
  topology : TopologyPaths := {}
  counters : CounterConfig := {}
  simulation : SimulationConfig := {}
  logging : LoggingConfig := {}
  debug : Bool := false
deriving DecidableEq, Repr

end CoreTally
