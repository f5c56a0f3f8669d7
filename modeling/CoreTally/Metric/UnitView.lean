import CoreTally.Metric.Session

/-
  This file looks at readings from one hardware thread: which
  sessions hold readings for it, and what these are.

  Key definitions include:
    * `UnitView`
    * `UnitView.of`
    * `UnitView.eventSets`
    * `UnitView.metric`
    * `UnitView.text`
-/

namespace CoreTally

/- The sessions with readings for one thread component. -/
structure UnitView where
  name : String
  node : Nat
  unit : UnitId
  sessions : List Session

namespace UnitView

/- The view of a component, which must be a thread. -/
def of
    (topology : Topology)
    (node : Nat)
    (sessions : List Session) : Except Error UnitView :=
  match topology.get? node with
  | none => .error (.argument (.unknownNode node))
  | some component =>
      if component.kind = .thread then
        .ok
          { name := component.name
            node := node
            unit := component.id
            sessions := sessions.filter (·.observes node) }
      else
        .error (.argument (.notThread component.kind component.id))

/- The first session of an event set. -/
def session? (view : UnitView) (set : EventSet) : Option Session :=
  view.sessions.find? (·.handle == set)

/- The event sets with readings, ascending and each one once. -/
def eventSets (view : UnitView) : List EventSet :=
  ((view.sessions.map Session.handle).mergeSort
    fun a b => a ≤ b).eraseReps

/-
  The reading of an event from an event set, by default at the
  latest instant of its session; zero if there is none.
-/
def metric
    (view : UnitView)
    (event : String)
    (set : EventSet)
    (at? : Option Instant) : Count :=
  match view.session? set with
  | none => 0
  | some session => session.metric event (some view.unit) at?

/- The readings of the thread, of one event set or of all. -/
def text (view : UnitView) (set : Option EventSet) : String :=
  let shown := view.sessions.filter fun session =>
    set.all (· == session.handle)
  String.join
    (shown.map fun session =>
      s!"event set {session.handle} on {view.name}:\n" ++
        session.unitText view.unit)

end UnitView

end CoreTally
