import CoreTally.CommandLine.Arguments
import CoreTally.Config.Validation
import CoreTally.Config.Workload
import CoreTally.Config.YamlForm
import CoreTally.Metric.Report
import CoreTally.Topology.Listing
import CoreTally.Topology.Sysfs

/-
  This file carries out what a command line asks for. The result
  is the text to print.

  Key definitions include:
    * `CommandLine.Environment.configPath?`
    * `CommandLine.Invocation.configText`
    * `CommandLine.Invocation.loadConfig`
    * `CommandLine.Invocation.execute`
    * `CommandLine.Invocation.run`
-/

namespace CoreTally.CommandLine

------------------------------------------------------------
-- Configurations
------------------------------------------------------------

/- The directory that holds configurations. -/
def Environment.configDirectory?
    (environment : Environment) : Option String :=
  let standard :=
    (environment.home.filter (· != "")).map fun home =>
      Path.join home ".config"
  (environment.configHome.filter Path.isAbsolute).or standard

/- The configuration file that is read when none is given. -/
def Environment.configPath?
    (environment : Environment) : Option String :=
  environment.configDirectory?.map fun directory =>
    Path.join (Path.join directory "topoperf") "config.yaml"

/- Change a workload as a command says. -/
def Command.apply (command : Command) (config : Config) : Config :=
  match command with
  | .topology _ => config
  | .simulate mode permanent units =>
      { config with
        counters :=
          { config.counters with
            mode := mode.getD config.counters.mode
            permanent := permanent || config.counters.permanent }
        simulation :=
          { config.simulation with
            units := units.getD config.simulation.units } }

namespace Invocation

/-
  The text of the configuration file, if there is one. Only a
  file that is given must be readable.
-/
def configText
    (invocation : Invocation)
    (environment : Environment)
    (files : Files) : Except Error (Option String) :=
  match invocation.config with
  | some path =>
      match files.readText path with
      | .ok text => .ok (some text)
      | .error cause => .error (.config (.unreadable path cause))
  | none =>
      .ok (environment.configPath?.bind fun path =>
        (files.readText path).toOption)

/-
  The configuration: the defaults, changed by the configuration
  file and then by the arguments.
-/
def loadConfig
    (invocation : Invocation)
    (environment : Environment)
    (files : Files) : Except Error Config := do
  let text ← invocation.configText environment files
  let read ←
    match text with
    | none => pure {}
    | some text => Config.readYaml {} text
  let changed :=
    match invocation.command with
    | none => read
    | some command => command.apply read
  Config.validate { changed with debug := invocation.debug }

------------------------------------------------------------
-- Commands
------------------------------------------------------------

/- The words for a configuration that can be used. -/
def summary (config : Config) : String :=
  let events := ", ".intercalate config.counters.events
  let units := ", ".intercalate (config.simulation.units.map toString)
  "Configuration is valid!\n" ++
    s!"  Events: {events}\n" ++
    s!"  Mode: {config.counters.mode.label}\n" ++
    s!"  Units: [{units}]\n" ++
    s!"  Hardware threads: {config.simulation.totalThreads}\n"

/- A topology, as a listing or in JSON. -/
def topologyText
    (config : Config)
    (files : Files)
    (sysfs json : Bool) : Except Error String := do
  let topology ←
    if sysfs then
      Sysfs.load files config.topology.sysfsCpuRoot
        (some config.topology.meminfo)
    else
      pure config.machineTopology
  return if json then (topology.toJson 0).pretty ++ "\n"
    else topology.listing 0

/- The readings of the simulated workload, as lines or in JSON. -/
def workloadText
    (config : Config)
    (machine : Machine)
    (json : Bool) : Except Error String := do
  let session ← config.simulate machine
  return if json then
      (SessionReport.capture session config.machineTopology).write ++ "\n"
    else session.text

/- The text to print with a configuration. -/
def execute
    (invocation : Invocation)
    (config : Config)
    (machine : Machine) : Except Error String :=
  if invocation.checkConfig then
    .ok (summary config)
  else
    match invocation.command with
    | some (.topology sysfs) =>
        topologyText config machine.files sysfs invocation.json
    | _ => workloadText config machine invocation.json

/- The text to print. -/
def run
    (invocation : Invocation)
    (environment : Environment)
    (machine : Machine) : Except Error String := do
  let config ← invocation.loadConfig environment machine.files
  invocation.execute config machine

end Invocation

end CoreTally.CommandLine
