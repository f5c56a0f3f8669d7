import CoreTally.Counter.Source

/-
  This file defines a counter source that answers from a script.
  It counts nothing and takes no notice of handles, which makes
  it a stand-in for sources that misbehave.

  Key definitions include:
    * `Script`
    * `Script.source`
-/

namespace CoreTally

/-
  The answers of a source: the names of its events, none for a
  nameless one, the counts, the binding, and the operations that
  fail, by name.
-/
structure Script where
  events : List (Option String) := []
  values : List Count := []
  binding : UnitBinding := .cpu 0
  failures : List (String × BackendError) := []
deriving DecidableEq, Repr

namespace Script

/- The answer of an operation, unless it is to fail. -/
def reply
    {σ α : Type}
    (script : Script)
    (operation : String)
    (value : Except BackendError α) : Action BackendError σ α :=
  match script.failures.lookup operation with
  | some e => throw e
  | none => CounterSource.answer value

/- The event has no name. -/
def nameless : BackendError :=
  ⟨Status.noEvent, "nameless"⟩

/- The name of the event with a code, which is its position. -/
def nameOf (script : Script) (code : EventCode) : Except BackendError String :=
  match script.events[code.toNat]? with
  | some (some name) => .ok name
  | _ => .error nameless

/- The codes of the events. -/
def codes (script : Script) : List EventCode :=
  (List.range script.events.length).map UInt32.ofNat

/- A source that answers from a script. -/
def source
    {σ : Type}
    (script : Script)
    (resolve : UnitBinding → Except Error UnitId) :
    CounterSource (σ × List CounterSource.Call) :=
  CounterSource.resolvedBy resolve
    (CounterSource.recorded
      { start := fun _ => script.reply "start" (.ok ())
        read := fun _ => script.reply "read" (.ok script.values)
        accumulate := fun _ =>
          script.reply "accumulate" (.ok script.values)
        stop := fun _ => script.reply "stop" (.ok script.values)
        reset := fun _ => script.reply "reset" (.ok ())
        listEvents := fun _ =>
          script.reply "list_events" (.ok script.codes)
        eventName := fun code =>
          script.reply "event_name" (script.nameOf code)
        eventCode := fun _ => script.reply "event_code" (.ok 0)
        binding := fun _ => script.reply "binding" (.ok script.binding)
        currentUnit := fun _ =>
          CounterSource.answer (resolve script.binding) })

end Script

end CoreTally
