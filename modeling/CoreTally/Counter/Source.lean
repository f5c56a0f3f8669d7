import CoreTally.Count
import CoreTally.Counter.Binding

/-
  This file defines what a counter source offers: operations on
  event sets, which are lists of events that count together.

  An operation may change the state of the source and may fail,
  with a status code of the source's own.

  Key definitions include:
    * `Action`
    * `CounterSource`
    * `CounterSource.resolvedBy`
    * `CounterSource.Call`
    * `CounterSource.recorded`
-/

namespace CoreTally

/- An operation on a state that may fail. -/
abbrev Action (ε σ α : Type) :=
  EStateM ε σ α

/-
  A counter source with states `σ`.

  `read` returns the counts since the last start, reset or
  accumulate. `accumulate` returns the same and zeroes them.
  `stop` returns the final counts, and the event set can not be
  read again until it is started. Counts come in the order of
  the events in the set.
-/
structure CounterSource (σ : Type) where
  start : EventSet → Action BackendError σ Unit
  read : EventSet → Action BackendError σ (List Count)
  accumulate : EventSet → Action BackendError σ (List Count)
  stop : EventSet → Action BackendError σ (List Count)
  reset : EventSet → Action BackendError σ Unit
  listEvents : EventSet → Action BackendError σ (List EventCode)
  eventName : EventCode → Action BackendError σ String
  eventCode : String → Action BackendError σ EventCode
  binding : EventSet → Action BackendError σ UnitBinding
  currentUnit : EventSet → Action Error σ UnitId

namespace CounterSource

variable {σ : Type}

/- An answer that does not depend on the state. -/
def answer {ε α : Type} : Except ε α → Action ε σ α
| .ok value => pure value
| .error e => throw e

/- A source whose units are found from its bindings. -/
def resolvedBy
    (resolve : UnitBinding → Except Error UnitId)
    (source : CounterSource σ) : CounterSource σ :=
  { source with
    currentUnit := fun set => do
      let binding ← (source.binding set).adaptExcept Error.backend
      answer (resolve binding) }

------------------------------------------------------------
-- Recorded Calls
------------------------------------------------------------

/- A call of one operation. -/
inductive Call where
| start (set : EventSet)
| read (set : EventSet)
| accumulate (set : EventSet)
| stop (set : EventSet)
| reset (set : EventSet)
| listEvents (set : EventSet)
| eventName (code : EventCode)
| eventCode (name : String)
| binding (set : EventSet)
| currentUnit (set : EventSet)
deriving DecidableEq, Repr

/- The name of the operation that is called. -/
def Call.label : Call → String
| start _ => "start"
| read _ => "read"
| accumulate _ => "accumulate"
| stop _ => "stop"
| reset _ => "reset"
| listEvents _ => "list_events"
| eventName _ => "event_name"
| eventCode _ => "event_code"
| binding _ => "binding"
| currentUnit _ => "current_unit"

/- Carry out an operation after noting its call. -/
def noting
    {ε α : Type}
    (call : Call)
    (action : Action ε σ α) : Action ε (σ × List Call) α :=
  fun (state, calls) =>
    match action state with
    | .ok value state => .ok value (state, calls ++ [call])
    | .error e state => .error e (state, calls ++ [call])

/- A source that notes every call, the latest one last. -/
def recorded (source : CounterSource σ) : CounterSource (σ × List Call) where
  start set := noting (.start set) (source.start set)
  read set := noting (.read set) (source.read set)
  accumulate set := noting (.accumulate set) (source.accumulate set)
  stop set := noting (.stop set) (source.stop set)
  reset set := noting (.reset set) (source.reset set)
  listEvents set := noting (.listEvents set) (source.listEvents set)
  eventName code := noting (.eventName code) (source.eventName code)
  eventCode name := noting (.eventCode name) (source.eventCode name)
  binding set := noting (.binding set) (source.binding set)
  currentUnit set := noting (.currentUnit set) (source.currentUnit set)

end CounterSource

end CoreTally
