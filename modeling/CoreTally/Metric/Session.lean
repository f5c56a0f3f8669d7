import CoreTally.Counter.Source
import CoreTally.Metric.Ledger
import CoreTally.Topology.Traversal

/-
  This file defines measurement sessions. A session follows one
  event set and records every reading taken through it, per
  event and per execution unit. A reading belongs to the
  `thread` component of the topology that the event set reports
  from at the time of the call.

  All questions that may fail (event names, reporting unit,
  topology component) come before the counters are touched, so
  a failing call leaves source and session as they were.

  Key definitions include:
    * `Session`
    * `Session.start`
    * `Session.reset`
    * `Session.Primitive`
    * `Session.observe`
    * `Session.record`
    * `Session.metric`
-/

namespace CoreTally

/- The history of the readings of one event set. -/
structure Session where
  handle : EventSet
  running : Bool
  ledger : Ledger
deriving DecidableEq

/- Part of a topology in which readings are located. -/
structure Site where
  topology : Topology
  root : Nat

namespace Session

------------------------------------------------------------
-- Starting and Resetting
------------------------------------------------------------

/- A session whose event set has just been started. -/
def fresh (handle : EventSet) : Session where
  handle := handle
  running := true
  ledger := Ledger.empty.requestReset

/-
  A session that goes on with an event set that has just been
  started.
-/
def rebind (session : Session) (handle : EventSet) : Session where
  handle := handle
  running := true
  ledger := session.ledger.requestReset

/-
  Start an event set for a slot, which may hold a session. The
  session is rebound, or a new one is put into an empty slot.
-/
def start
    {σ : Type}
    (source : CounterSource σ)
    (handle : EventSet) : Action Error (σ × Option Session) Unit :=
  fun (state, slot) =>
    match source.start handle state with
    | .error e state => .error (.backend e) (state, slot)
    | .ok _ state =>
        match slot with
        | none => .ok () (state, some (fresh handle))
        | some session => .ok () (state, some (session.rebind handle))

/- Zero the counters of the event set. -/
def reset
    {σ : Type}
    (source : CounterSource σ) : Action Error (σ × Session) Unit :=
  fun (state, session) =>
    match source.reset session.handle state with
    | .error e state => .error (.backend e) (state, session)
    | .ok _ state =>
        .ok ()
          (state, { session with ledger := session.ledger.requestReset })

------------------------------------------------------------
-- Questions
------------------------------------------------------------

/- The name of an event, which every event must have. -/
def eventName
    {σ : Type}
    (source : CounterSource σ)
    (code : EventCode) : Action Error σ String :=
  (source.eventName code).adaptExcept fun e =>
    .argument (.unnamedEvent code e)

/- The names of the events of an event set, of which there are some. -/
def eventNames
    {σ : Type}
    (source : CounterSource σ)
    (handle : EventSet) : Action Error σ (List String) := do
  let codes ← (source.listEvents handle).adaptExcept Error.backend
  if codes.isEmpty then
    throw (.argument (.emptyEventSet handle))
  else
    codes.mapM (eventName source)

/- A unit together with its component. -/
structure Location where
  unit : UnitId
  node : Nat
deriving DecidableEq, Repr

/- The thread component of a unit. -/
def locateUnit (site : Site) (unit : UnitId) : Except Error Location :=
  match site.topology.find? site.root unit .thread with
  | none => .error (.argument (.noThread unit))
  | some node => .ok ⟨unit, node⟩

/- Where the event set reports from. -/
def locate
    {σ : Type}
    (source : CounterSource σ)
    (site : Site)
    (handle : EventSet) : Action Error σ Location := do
  let unit ← source.currentUnit handle
  CounterSource.answer (locateUnit site unit)

------------------------------------------------------------
-- Storing
------------------------------------------------------------

/- The ways to obtain the values of an event set. -/
inductive Primitive where
| read
| accumulate
| stop
deriving DecidableEq, Repr

namespace Primitive

/- The name of a primitive. -/
def label : Primitive → String
| read => "read"
| accumulate => "accumulate"
| stop => "stop"

/- Obtain the values. -/
def call
    {σ : Type}
    (source : CounterSource σ) :
    Primitive → EventSet → Action BackendError σ (List Count)
| read => source.read
| accumulate => source.accumulate
| stop => source.stop

end Primitive

/- Values with the names of their events. -/
def pair (names : List String) (values : List Count) : List Reading :=
  List.zipWith Reading.mk names values

/-
  Store readings under the next instant after the clock reading
  `now`. Accumulated values are deltas, all others cumulative.
-/
def commit
    (session : Session)
    (primitive : Primitive)
    (location : Location)
    (now : Instant)
    (readings : List Reading)
    (permanent : Bool) : Session × Instant :=
  let instant := Instant.next now session.ledger.latest
  let store :=
    match primitive with
    | .accumulate => session.ledger.storeAccumulate
    | .read | .stop => session.ledger.storeRead
  ({ session with
      ledger :=
        store location.unit location.node instant readings permanent },
    instant)

/- A source returned another number of values than of events. -/
def wrongCount (primitive : Primitive) (values events : Nat) : BackendError :=
  ⟨Status.other,
    s!"{primitive.label} returned {values} values for {events} events"⟩

/- The session after its primitive has been carried out. -/
def after (session : Session) (primitive : Primitive) : Session :=
  if primitive = .stop then { session with running := false } else session

/-
  Obtain values with a primitive and attribute them to the unit
  that reports. The answer is the instant they are stored under.
-/
def observe
    {σ : Type}
    (source : CounterSource σ)
    (site : Site)
    (now : Instant)
    (primitive : Primitive)
    (permanent : Bool) : Action Error (σ × Session) Instant :=
  fun (state, session) =>
    let survey : Action Error σ (List String × Location) := do
      let names ← eventNames source session.handle
      let location ← locate source site session.handle
      return (names, location)
    match survey state with
    | .error e state => .error e (state, session)
    | .ok (names, location) state =>
        match primitive.call source session.handle state with
        | .error e state => .error (.backend e) (state, session)
        | .ok values state =>
            let session := session.after primitive
            if values.length = names.length then
              let (session, instant) :=
                session.commit primitive location now
                  (pair names values) permanent
              .ok instant (state, session)
            else
              .error
                (.backend
                  (wrongCount primitive values.length names.length))
                (state, session)

/-
  Store values that were obtained elsewhere, one per event, as a
  read would store them.
-/
def record
    {σ : Type}
    (source : CounterSource σ)
    (site : Site)
    (now : Instant)
    (values : List Count)
    (permanent : Bool) : Action Error (σ × Session) Instant :=
  fun (state, session) =>
    let survey : Action Error σ (List String × Location) := do
      let names ← eventNames source session.handle
      if names.length = values.length then
        let location ← locate source site session.handle
        return (names, location)
      else
        throw
          (.argument
            (.valueCount session.handle names.length values.length))
    match survey state with
    | .error e state => .error e (state, session)
    | .ok (names, location) state =>
        let (session, instant) :=
          session.commit .read location now (pair names values) permanent
        .ok instant (state, session)

------------------------------------------------------------
-- Queries
------------------------------------------------------------

/- The instant of the last stored reading. -/
def latest (session : Session) : Instant :=
  session.ledger.latest

/-
  The sum of the readings of an event at an instant, the latest
  one by default, over all units or on one of them.
-/
def metric
    (session : Session)
    (event : String)
    (unit : Option UnitId)
    (at? : Option Instant) : Count :=
  session.ledger.store.total event unit (at?.getD session.latest)

/- Every reading of an event on a unit. -/
def series?
    (session : Session)
    (event : String)
    (unit : UnitId) : Option Series :=
  session.ledger.store.unitSeries? event unit

/- Units with readings, ascending. -/
def units (session : Session) : List UnitId :=
  session.ledger.participants.keys

/- The session holds readings for a component. -/
def observes (session : Session) (node : Nat) : Bool :=
  session.ledger.participants.toList.any fun (_, p) => p.node == node

/- The number of series stored for a unit. -/
def refs? (session : Session) (unit : UnitId) : Option UInt32 :=
  (session.ledger.participants.find? unit).map Participant.refs

/- Names of the events with readings, ascending. -/
def names (session : Session) : List String :=
  session.ledger.store.names

/- The lines with the readings of an event on a unit. -/
def seriesText (event : String) (series : Series) : String :=
  "  " ++ event ++ ":\n" ++
    String.join
      (series.entries.map fun entry => "    " ++ entry.text ++ "\n")

/- The lines with all readings on a unit, by event. -/
def unitText (session : Session) (unit : UnitId) : String :=
  String.join
    (session.names.filterMap fun event =>
      (session.series? event unit).map (seriesText event))

/- All readings, by unit and then by event. -/
def text (session : Session) : String :=
  String.join
    (session.units.map fun unit =>
      s!"metrics on unit {unit}:\n" ++ session.unitText unit)

end Session

end CoreTally
