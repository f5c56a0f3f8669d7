import CoreTally.Config.Basic

/-
  This file reads configurations out of structured values, of
  whatever format. Sections and fields that are missing have
  their defaults, and the debug mode is never read.

  Key definitions include:
    * `ValueReader`
    * `ValueReader.config?`
-/

namespace CoreTally

------------------------------------------------------------
-- Readers
------------------------------------------------------------

/-
  How the values of a format are read: as records with named
  fields, which may be missing; as lists; as truth values; as
  natural numbers below a bound; as texts; and as choices among
  names.
-/
structure ValueReader (V : Type) where
  fields? : List String → V → Option (List (Option V))
  items? : V → Option (List V)
  bool? : V → Option Bool
  natural? : Nat → V → Option Nat
  text? : V → Option String
  choice? : V → Option String

namespace ValueReader

variable {V : Type}

/- A list whose items are all read alike. -/
def list?
    {α : Type}
    (reader : ValueReader V)
    (item? : V → Option α)
    (value : V) : Option (List α) :=
  (reader.items? value).bind fun items => items.mapM item?

/- An unsigned 32-bit number. -/
def uint32? (reader : ValueReader V) (value : V) : Option UInt32 :=
  (reader.natural? UInt32.size value).map UInt32.ofNat

/- An unsigned 64-bit number. -/
def uint64? (reader : ValueReader V) (value : V) : Option UInt64 :=
  (reader.natural? UInt64.size value).map UInt64.ofNat

/- A field that may be missing. -/
def orDefault?
    {α : Type}
    (missing : α)
    (read? : V → Option α) : Option V → Option α
| none => some missing
| some value => read? value

------------------------------------------------------------
-- Sections
------------------------------------------------------------

/- Where the description of a machine is read from. -/
def topologyPaths?
    (reader : ValueReader V)
    (value : V) : Option TopologyPaths := do
  let names := ["sysfs_cpu_root", "procfs_root", "meminfo"]
  let std : TopologyPaths := {}
  match ← reader.fields? names value with
  | [sysfs, procfs, meminfo] =>
      let sysfsCpuRoot ← orDefault? std.sysfsCpuRoot reader.text? sysfs
      let procfsRoot ← orDefault? std.procfsRoot reader.text? procfs
      let meminfo ← orDefault? std.meminfo reader.text? meminfo
      return { sysfsCpuRoot, procfsRoot, meminfo }
  | _ => none

/- Which events are counted. -/
def counters?
    (reader : ValueReader V)
    (value : V) : Option CounterConfig := do
  let names := ["events", "permanent", "mode"]
  let std : CounterConfig := {}
  match ← reader.fields? names value with
  | [events, permanent, mode] =>
      let events ← orDefault? std.events (reader.list? reader.text?) events
      let permanent ← orDefault? std.permanent reader.bool? permanent
      let mode ← orDefault? std.mode
        (fun value => (reader.choice? value).bind MeasureMode.ofName?) mode
      return { events, permanent, mode }
  | _ => none

/- A simulated workload. -/
def simulation?
    (reader : ValueReader V)
    (value : V) : Option SimulationConfig := do
  let names :=
    ["units", "work_per_step", "sockets", "cores_per_socket",
      "threads_per_core"]
  let std : SimulationConfig := {}
  match ← reader.fields? names value with
  | [units, work, sockets, cores, threads] =>
      let units ← orDefault? std.units (reader.list? reader.uint32?) units
      let workPerStep ← orDefault? std.workPerStep reader.uint64? work
      let sockets ← orDefault? std.sockets reader.uint32? sockets
      let coresPerSocket ←
        orDefault? std.coresPerSocket reader.uint32? cores
      let threadsPerCore ←
        orDefault? std.threadsPerCore reader.uint32? threads
      return { units, workPerStep, sockets, coresPerSocket, threadsPerCore }
  | _ => none

/- How much is logged. -/
def logging?
    (reader : ValueReader V)
    (value : V) : Option LoggingConfig := do
  let std : LoggingConfig := {}
  match ← reader.fields? ["level", "structured"] value with
  | [level, structured] =>
      let level ← orDefault? std.level
        (fun value => (reader.choice? value).bind LogLevel.ofName?) level
      let structured ← orDefault? std.structured reader.bool? structured
      return { level, structured }
  | _ => none

------------------------------------------------------------
-- Configurations
------------------------------------------------------------

/- A complete configuration. -/
def config? (reader : ValueReader V) (value : V) : Option Config := do
  let names := ["topology", "counters", "simulation", "logging"]
  match ← reader.fields? names value with
  | [topology, counters, simulation, logging] =>
      let topology ← orDefault? {} reader.topologyPaths? topology
      let counters ← orDefault? {} reader.counters? counters
      let simulation ← orDefault? {} reader.simulation? simulation
      let logging ← orDefault? {} reader.logging? logging
      return { topology, counters, simulation, logging }
  | _ => none

end ValueReader

end CoreTally
