import CoreTally.Config.Basic
import CoreTally.Counter.Simulated
import CoreTally.Metric.Session

/-
  This file runs the simulated workload of a configuration. One
  event set with the configured events follows a thread along
  the route. On every visit some work is done and a reading is
  taken, and the event set is stopped at the end of the route.

  Key definitions include:
    * `Config.machineTopology`
    * `Config.prepare`
    * `Config.visit`
    * `Config.travel`
    * `Config.simulateOver`
    * `Config.simulate`
-/

namespace CoreTally

/- How a mode takes its readings. -/
def MeasureMode.primitive : MeasureMode → Session.Primitive
| read => .read
| accumulate => .accumulate

namespace Config

/- The machine of the workload, whose root is component 0. -/
def machineTopology (config : Config) : Topology :=
  .uniform config.simulation.sockets config.simulation.coresPerSocket
    config.simulation.threadsPerCore

/- The whole machine of the workload. -/
def site (config : Config) : Site :=
  ⟨config.machineTopology, 0⟩

/- The counters of the workload, on the machine underneath. -/
def source (config : Config) (machine : Machine) : CounterSource Simulated :=
  Simulated.source
    (Resolver.resolve ⟨config.topology.procfsRoot⟩ machine)

/- Create an event set with the configured events. -/
def prepare (config : Config) : Action BackendError Simulated EventSet := do
  let set ← modifyGet fun s => (s.createEventSet.2, s.createEventSet.1)
  config.counters.events.forM fun event =>
    discard (Simulated.addNamedEvent set event)
  return set

/- Carry out an operation of the source under a session. -/
def underSession
    {α : Type}
    (action : Action BackendError Simulated α) :
    Action Error (Simulated × Session) α :=
  fun (s, session) =>
    match action s with
    | .ok value s => .ok value (s, session)
    | .error e s => .error (.backend e) (s, session)

/- Take a reading of the workload at a site. -/
def observe
    (config : Config)
    (machine : Machine)
    (site : Site)
    (primitive : Session.Primitive) :
    Action Error (Simulated × Session) Instant :=
  Session.observe (config.source machine) site machine.clock.now
    primitive config.counters.permanent

/- Move to a unit, do some work there and take a reading. -/
def visit
    (config : Config)
    (machine : Machine)
    (site : Site)
    (set : EventSet)
    (unit : UnitId) : Action Error (Simulated × Session) Unit := do
  underSession (Simulated.migrate set unit)
  underSession (Simulated.execute set config.simulation.workPerStep)
  discard (config.observe machine site config.counters.mode.primitive)

/-
  Visit the units along the route, and stop. Every reading is
  taken on the machine as it is at that time, whose clock has
  moved on since the one before.
-/
def travel
    (config : Config)
    (machines : Nat → Machine)
    (site : Site)
    (set : EventSet) : Action Error (Simulated × Session) Unit := do
  config.simulation.route.zipIdx.forM fun (unit, step) =>
    config.visit (machines step) site set unit
  let last := machines config.simulation.route.length
  discard (config.observe last site .stop)

/- The session after the whole workload, on a changing machine. -/
def simulateOver
    (config : Config)
    (machines : Nat → Machine) : Except Error Session :=
  match config.prepare Simulated.withDefaultEvents with
  | .error e _ => .error (.backend e)
  | .ok set s =>
      match Simulated.start set s with
      | .error e _ => .error (.backend e)
      | .ok _ s =>
          match config.travel machines config.site set
              (s, Session.fresh set) with
          | .error e _ => .error e
          | .ok _ (_, session) => .ok session

/- The session after the whole workload, on one machine. -/
def simulate
    (config : Config)
    (machine : Machine) : Except Error Session :=
  config.simulateOver fun _ => machine

end Config

end CoreTally
