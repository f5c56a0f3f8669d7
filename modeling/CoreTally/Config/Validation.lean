import CoreTally.Config.Basic
import CoreTally.Error

/-
  This file defines when a configuration can be used. A
  configuration that cannot be is refused for its first problem:
  events are looked at before units, units before work, and work
  before the dimensions of the machine.

  Key definitions include:
    * `CounterConfig.problem?`
    * `SimulationConfig.problem?`
    * `Config.problem?`
    * `Config.validate`
-/

namespace CoreTally

/-
  The first problem of event names behind the names `before`:
  every name holds more than blanks, and none comes twice.
-/
def eventProblem? (before : List String) : List String → Option ConfigProblem
| [] => none
| event :: rest =>
    if (Text.trim event.toList).isEmpty then
      some .blankEvent
    else if before.contains event then
      some (.duplicateEvent event)
    else
      eventProblem? (event :: before) rest

/- The first problem of the counted events. -/
def CounterConfig.problem? (counters : CounterConfig) : Option ConfigProblem :=
  if counters.events.isEmpty then
    some .noEvents
  else
    eventProblem? [] counters.events

namespace SimulationConfig

/- The first visited unit that the machine does not have. -/
def unitOutside? (simulation : SimulationConfig) : Option UnitId :=
  simulation.units.find? fun unit =>
    simulation.totalThreads ≤ unit.toNat

/- The first problem of the workload. -/
def problem? (simulation : SimulationConfig) : Option ConfigProblem :=
  if simulation.units.isEmpty then
    some .noUnits
  else if simulation.workPerStep = 0 then
    some .noWork
  else if simulation.totalThreads = 0 then
    some .emptyTopology
  else
    simulation.unitOutside?.map fun unit =>
      .unitOutside unit simulation.totalThreads

end SimulationConfig

namespace Config

/- The first problem of a configuration. -/
def problem? (config : Config) : Option ConfigProblem :=
  config.counters.problem?.or config.simulation.problem?

/- A configuration without problems. -/
def validate (config : Config) : Except Error Config :=
  match config.problem? with
  | some problem => .error (.config problem)
  | none => .ok config

end Config

end CoreTally
