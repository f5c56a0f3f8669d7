import CoreTally.Config.Decoding
import CoreTally.Json.Record

/-
  This file defines the JSON form of configurations. A choice
  among names is a string, or an object with the name as its
  only key and null as its value.

  Key definitions include:
    * `Json.choice?`
    * `Json.reader`
    * `Config.ofJson?`
    * `Config.toJson`
-/

namespace CoreTally

------------------------------------------------------------
-- Reading
------------------------------------------------------------

namespace Json

/- A choice among names. -/
def choice? : Json → Option String
| .string text => text
| .object [(name, .null)] => name
| _ => none

/- The items of an array. -/
def items? : Json → Option (List Json)
| .array items => some items
| _ => none

/- A natural number below a bound. -/
def natural? (bound : Nat) (value : Json) : Option Nat :=
  (value.between? 0 (bound - 1 : Nat)).map Int.toNat

/- How JSON values are read. -/
def reader : ValueReader Json where
  fields?
  items?
  bool?
  natural?
  text?
  choice?

end Json

/- A configuration in JSON. -/
def Config.ofJson? (value : Json) : Option Config :=
  Json.reader.config? value

------------------------------------------------------------
-- Writing
------------------------------------------------------------

/- A section in JSON. -/
def TopologyPaths.toJson (paths : TopologyPaths) : Json :=
  .record
    [("sysfs_cpu_root", .str paths.sysfsCpuRoot),
      ("procfs_root", .str paths.procfsRoot),
      ("meminfo", .str paths.meminfo)]

/- A section in JSON. -/
def CounterConfig.toJson (counters : CounterConfig) : Json :=
  .record
    [("events", .array (counters.events.map .str)),
      ("permanent", .bool counters.permanent),
      ("mode", .str counters.mode.name)]

/- A section in JSON. -/
def SimulationConfig.toJson (simulation : SimulationConfig) : Json :=
  .record
    [("units",
        .array (simulation.units.map fun unit => .nat unit.toNat)),
      ("work_per_step", .nat simulation.workPerStep.toNat),
      ("sockets", .nat simulation.sockets.toNat),
      ("cores_per_socket", .nat simulation.coresPerSocket.toNat),
      ("threads_per_core", .nat simulation.threadsPerCore.toNat)]

/- A section in JSON. -/
def LoggingConfig.toJson (logging : LoggingConfig) : Json :=
  .record
    [("level", .str logging.level.name),
      ("structured", .bool logging.structured)]

namespace Config

/- The sections of a configuration, which leave out the debug mode. -/
def sections (config : Config) : List (String × Json) :=
  [("topology", config.topology.toJson),
    ("counters", config.counters.toJson),
    ("simulation", config.simulation.toJson),
    ("logging", config.logging.toJson)]

/- A configuration in JSON. -/
def toJson (config : Config) : Json :=
  .record config.sections

end Config

end CoreTally
