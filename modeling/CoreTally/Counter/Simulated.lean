import CoreTally.Counter.Source
import CoreTally.OrderedMap

/-
  This file defines a counter source that counts synthetic work.
  Executing work on a running event set adds the work, times the
  weight of the event, to each of its counters. Event sets can
  be moved between processors to reproduce thread migration.

  Key definitions include:
    * `Simulated`
    * `Simulated.withDefaultEvents`
    * `Simulated.defineEvent`
    * `Simulated.createEventSet`
    * `Simulated.addEvent`
    * `Simulated.addNamedEvent`
    * `Simulated.migrate`
    * `Simulated.execute`
    * `Simulated.source`
-/

namespace CoreTally

------------------------------------------------------------
-- States
------------------------------------------------------------

/- A known event; each unit of work counts `weight` times. -/
structure CatalogEvent where
  code : EventCode
  name : String
  weight : Count
deriving DecidableEq, Repr

/- The counter of one event of an event set. -/
structure Counter where
  code : EventCode
  count : Count
deriving DecidableEq, Repr

/- An event set: its counters in order, and what it counts on. -/
structure SimulatedSet where
  counters : List Counter
  running : Bool
  binding : UnitBinding
deriving DecidableEq, Repr

/- The known events, the event sets and the next free handle. -/
structure Simulated where
  catalog : List CatalogEvent
  sets : OrderedMap EventSet SimulatedSet
  nextSet : EventSet
deriving DecidableEq

namespace SimulatedSet

/- An event set without events, counting on processor 0. -/
def empty : SimulatedSet where
  counters := []
  running := false
  binding := .cpu 0

/- The codes of the events, in order. -/
def codes (set : SimulatedSet) : List EventCode :=
  set.counters.map Counter.code

/- The counts, in the order of the events. -/
def counts (set : SimulatedSet) : List Count :=
  set.counters.map Counter.count

/- All counters at zero. -/
def zeroed (set : SimulatedSet) : SimulatedSet :=
  { set with
    counters := set.counters.map fun counter => { counter with count := 0 } }

/- One more event, not yet counted. -/
def push (set : SimulatedSet) (code : EventCode) : SimulatedSet :=
  { set with counters := set.counters ++ [⟨code, 0⟩] }

/- The counters after some work. A stopped set counts nothing. -/
def worked
    (set : SimulatedSet)
    (weight : EventCode → Count)
    (work : Count) : SimulatedSet :=
  if set.running then
    { set with
      counters := set.counters.map fun counter =>
        { counter with
          count := counter.count.plus (work.times (weight counter.code)) } }
  else
    set

end SimulatedSet

namespace Simulated

------------------------------------------------------------
-- Failures
------------------------------------------------------------

/- There is no such event set. -/
def noSet (set : EventSet) : BackendError :=
  ⟨Status.noEventSet, s!"no event set {set}"⟩

/- The event set is not running. -/
def notRunning (set : EventSet) : BackendError :=
  ⟨Status.notRunning, s!"event set {set} is not running"⟩

/- The event set is running. -/
def isRunningError (set : EventSet) : BackendError :=
  ⟨Status.running, s!"event set {set} is running"⟩

/- The event set has no events. -/
def noEvents (set : EventSet) : BackendError :=
  ⟨Status.invalid, s!"event set {set} has no events"⟩

/- There is no event with such a code. -/
def unknownCode (code : EventCode) : BackendError :=
  ⟨Status.noEvent, s!"unknown event {code.text}"⟩

/- There is no event with such a name. -/
def unknownName (name : String) : BackendError :=
  ⟨Status.noEvent, s!"unknown event '{name}'"⟩

/- The amount of work is no count. -/
def tooMuchWork : BackendError :=
  ⟨Status.invalid, "work does not fit a counter"⟩

------------------------------------------------------------
-- Catalog
------------------------------------------------------------

/- A source without known events. -/
def empty : Simulated where
  catalog := []
  sets := .empty
  nextSet := 1

/- Make an event known, in place of one with the same code. -/
def defineEvent
    (s : Simulated)
    (code : EventCode)
    (name : String)
    (weight : Count) : Simulated :=
  { s with
    catalog :=
      s.catalog.filter (·.code != code) ++ [⟨code, name, weight⟩] }

/- A source that knows four common events. -/
def withDefaultEvents : Simulated :=
  empty
    |>.defineEvent 0x80000032 "TOT_INS" 2
    |>.defineEvent 0x8000003b "TOT_CYC" 3
    |>.defineEvent 0x80000000 "L1_DCM" 1
    |>.defineEvent 0x8000002e "BR_MSP" 1

/- The known event with a code. -/
def event? (s : Simulated) (code : EventCode) : Option CatalogEvent :=
  s.catalog.find? (·.code == code)

/- The known event with a name, the first one of several. -/
def named? (s : Simulated) (name : String) : Option CatalogEvent :=
  s.catalog.find? (·.name == name)

/- How often a unit of work counts; once for unknown events. -/
def weight (s : Simulated) (code : EventCode) : Count :=
  match s.event? code with
  | none => 1
  | some event => event.weight

------------------------------------------------------------
-- Event Sets
------------------------------------------------------------

/- Put an event set in the place of an older one. -/
def putSet
    (s : Simulated)
    (set : EventSet)
    (new : SimulatedSet) : Simulated :=
  { s with sets := s.sets.insert set new }

/-
  Carry out an operation on an event set. A failing operation
  changes nothing.
-/
def onSet
    {α : Type}
    (set : EventSet)
    (operate : SimulatedSet → Except BackendError (α × SimulatedSet)) :
    Action BackendError Simulated α :=
  fun s =>
    match s.sets.find? set with
    | none => .error (noSet set) s
    | some old =>
        match operate old with
        | .error e => .error e s
        | .ok (value, new) => .ok value (s.putSet set new)

/- Answer a question about an event set. -/
def askSet
    {α : Type}
    (set : EventSet)
    (ask : SimulatedSet → α) : Action BackendError Simulated α :=
  fun s =>
    match s.sets.find? set with
    | none => .error (noSet set) s
    | some found => .ok (ask found) s

/- Create an event set without events. -/
def createEventSet (s : Simulated) : Simulated × EventSet :=
  ({ s.putSet s.nextSet .empty with nextSet := s.nextSet + 1 }, s.nextSet)

/-
  Add an event to a stopped event set, known or not. An unknown
  one has no name and counts once per unit of work.
-/
def addRawEvent
    (set : EventSet)
    (code : EventCode) : Action BackendError Simulated Unit :=
  onSet set fun old =>
    if old.running then
      .error (isRunningError set)
    else
      .ok ((), old.push code)

/- Add a known event to a stopped event set. -/
def addEvent
    (set : EventSet)
    (code : EventCode) : Action BackendError Simulated Unit :=
  fun s =>
    match s.event? code with
    | none => .error (unknownCode code) s
    | some _ => addRawEvent set code s

/- The code of a known event. -/
def eventCode (name : String) : Action BackendError Simulated EventCode :=
  fun s =>
    match s.named? name with
    | none => .error (unknownName name) s
    | some event => .ok event.code s

/- The name of a known event. -/
def eventName (code : EventCode) : Action BackendError Simulated String :=
  fun s =>
    match s.event? code with
    | none => .error (unknownCode code) s
    | some event => .ok event.name s

/- Add a known event by its name. -/
def addNamedEvent
    (set : EventSet)
    (name : String) : Action BackendError Simulated EventCode := do
  let code ← eventCode name
  addEvent set code
  return code

/- Change what an event set counts on. -/
def setBinding
    (set : EventSet)
    (binding : UnitBinding) : Action BackendError Simulated Unit :=
  onSet set fun old => .ok ((), { old with binding })

/- Move an event set to a processor. -/
def migrate
    (set : EventSet)
    (unit : UnitId) : Action BackendError Simulated Unit :=
  setBinding set (.cpu unit)

/- Do some work under an event set. -/
def execute
    (set : EventSet)
    (work : UInt64) : Action BackendError Simulated Unit :=
  fun s =>
    match Count.ofWork? work with
    | none => .error tooMuchWork s
    | some work =>
        onSet set (fun old => .ok ((), old.worked s.weight work)) s

/- An event set is counting. -/
def isRunning (s : Simulated) (set : EventSet) : Bool :=
  match s.sets.find? set with
  | none => false
  | some found => found.running

------------------------------------------------------------
-- Counting
------------------------------------------------------------

/- Start counting from zero. -/
def start (set : EventSet) : Action BackendError Simulated Unit :=
  onSet set fun old =>
    if old.running then
      .error (isRunningError set)
    else if old.counters.isEmpty then
      .error (noEvents set)
    else
      .ok ((), { old.zeroed with running := true })

/- Return the counts of a running event set and change it. -/
def take
    (set : EventSet)
    (change : SimulatedSet → SimulatedSet) :
    Action BackendError Simulated (List Count) :=
  onSet set fun old =>
    if old.running then
      .ok (old.counts, change old)
    else
      .error (notRunning set)

/- The counts so far. -/
def read (set : EventSet) : Action BackendError Simulated (List Count) :=
  take set id

/- The counts so far, which are zeroed. -/
def accumulate
    (set : EventSet) : Action BackendError Simulated (List Count) :=
  take set SimulatedSet.zeroed

/- The final counts. -/
def stop (set : EventSet) : Action BackendError Simulated (List Count) :=
  take set fun old => { old with running := false }

/- Zero the counters, whether running or not. -/
def reset (set : EventSet) : Action BackendError Simulated Unit :=
  onSet set fun old => .ok ((), old.zeroed)

/-
  The operations as a counter source, with `resolve` to find the
  units of bindings.
-/
def source
    (resolve : UnitBinding → Except Error UnitId) :
    CounterSource Simulated :=
  CounterSource.resolvedBy resolve
    { start
      read
      accumulate
      stop
      reset
      listEvents := fun set => askSet set SimulatedSet.codes
      eventName
      eventCode
      binding := fun set => askSet set SimulatedSet.binding
      currentUnit := fun _ => CounterSource.answer (resolve .caller) }

end Simulated

end CoreTally
