import CoreTally.Config.Workload
import CoreTally.Proofs.Counter.Tallies
import CoreTally.Proofs.Session.Observation

/-
  Steps of a workload on a simulated source with a session.
  If the events of the event set have names, the unit that is
  visited is part of the site and no tally leaves the range,
  then every step succeeds and stores exactly the tallies.

  Key definitions include:
    * `Simulated.Catalogued`
    * `Visit`
    * `Visit.Possible`
    * `Visit.perform`
    * `Visit.performAll`

  Key theorems include:
    * `Simulated.eventNames_source`
    * `Simulated.locate_source`
    * `Session.start_cases`
    * `Simulated.observe_source`
    * `Visit.work_ok`
    * `Visit.perform_ok`
-/

namespace CoreTally

------------------------------------------------------------
-- Questions to a Simulated Source
------------------------------------------------------------

namespace Simulated

/- There are events, all of them known and no two alike in name. -/
structure Catalogued
    (s : Simulated)
    (codes : List EventCode) : Prop where
  some : codes ≠ []
  named : ∀ code ∈ codes, (s.event? code).isSome = true
  distinct : (codes.map s.nameOf).Nodup

/- Only the known events matter. -/
theorem Catalogued.congr
    {origin other : Simulated}
    {codes : List EventCode}
    (hCatalogued : origin.Catalogued codes)
    (hEvents : other.event? = origin.event?) :
    other.Catalogued codes := by
  refine ⟨hCatalogued.some, ?_, ?_⟩
  · rw [hEvents]
    exact hCatalogued.named
  · rw [nameOf_congr hEvents]
    exact hCatalogued.distinct

variable {s : Simulated}
variable {handle : EventSet}
variable {set : SimulatedSet}

/- The events of an event set have their names in the catalog. -/
theorem eventNames_source
    (hFind : s.sets.find? handle = some set)
    (hCatalogued : s.Catalogued set.codes)
    (resolve : UnitBinding → Except Error UnitId) :
    Session.eventNames (source resolve) handle s =
      .ok (set.codes.map s.nameOf) s := by
  have hCodes :
      (((source resolve).listEvents handle).adaptExcept
          Error.backend) s =
        .ok set.codes s := by
    simp [source, CounterSource.resolvedBy, askSet,
      EStateM.adaptExcept, hFind]
  have hAsk :
      ∀ code ∈ set.codes,
        Session.eventName (source resolve) code s =
          .ok (s.nameOf code) s := by
    intro code hCode
    rcases Option.isSome_iff_exists.mp
      (hCatalogued.named code hCode) with ⟨event, hEvent⟩
    simp [Session.eventName, source, CounterSource.resolvedBy,
      eventName, EStateM.adaptExcept, nameOf, hEvent]
  unfold Session.eventNames
  rw [Action.bind_ok hCodes,
    if_neg (by simpa using hCatalogued.some)]
  exact Action.mapM_ok hAsk

/- An event set that counts on a processor reports from it. -/
theorem locate_source
    (hFind : s.sets.find? handle = some set)
    {unit : UnitId}
    (hBinding : set.binding = .cpu unit)
    {site : Site}
    {node : Nat}
    (hNode :
      site.topology.find? site.root unit .thread = some node)
    (resolver : Resolver)
    (machine : Machine) :
    Session.locate (source (resolver.resolve machine)) site
        handle s =
      .ok ⟨unit, node⟩ s := by
  have hUnit :
      (source (resolver.resolve machine)).currentUnit handle s =
        .ok unit s := by
    have hAnswer :
        ((askSet handle SimulatedSet.binding).adaptExcept
            Error.backend : Action Error Simulated UnitBinding) s =
          .ok (.cpu unit) s := by
      simp [askSet, EStateM.adaptExcept, hFind, hBinding]
    simp only [source, CounterSource.resolvedBy]
    rw [Action.bind_ok hAnswer]
    rfl
  unfold Session.locate
  rw [Action.bind_ok hUnit, Session.locateUnit, hNode]
  rfl

end Simulated

/- A start that succeeds puts a new session into an empty slot. -/
theorem Session.start_cases
    {origin s : Simulated}
    {session : Session}
    {handle : EventSet}
    {set : SimulatedSet}
    (hSet : origin.sets.find? handle = some set)
    {resolve : UnitBinding → Except Error UnitId}
    (hStart :
      start (Simulated.source resolve) handle (origin, none) =
        .ok () (s, some session)) :
    session = fresh handle ∧
      set.codes ≠ [] ∧
        s =
          origin.putSet handle
            (SimulatedSet.counting set.codes (fun _ => 0)
              set.binding) := by
  unfold start at hStart
  cases hCall : (Simulated.source resolve).start handle origin with
  | error e next => simp [hCall] at hStart
  | ok answer next =>
      simp only [hCall] at hStart
      injection hStart with _ hState
      injection hState with hNext hSession
      subst hNext
      rcases Simulated.start_cases hSet hCall with
        ⟨_, hCounters, rfl⟩
      refine ⟨(Option.some.inj hSession).symm, ?_, ?_⟩
      · simpa [SimulatedSet.codes] using hCounters
      · rw [SimulatedSet.zeroed_running]

------------------------------------------------------------
-- Observations of a Simulated Source
------------------------------------------------------------

/- The event set that a primitive leaves behind. -/
def Session.Primitive.left :
    Session.Primitive → SimulatedSet → SimulatedSet
| .read, set => set
| .accumulate, set => set.zeroed
| .stop, set => { set with running := false }

namespace Simulated

variable {s : Simulated}
variable {handle : EventSet}
variable {set : SimulatedSet}

/- The values of a running event set are its counts. -/
theorem call_source
    (hFind : s.sets.find? handle = some set)
    (hRunning : set.running = true)
    (resolve : UnitBinding → Except Error UnitId)
    (primitive : Session.Primitive) :
    primitive.call (source resolve) handle s =
      .ok set.counts (s.putSet handle (primitive.left set)) := by
  have hTake := take_eq hFind hRunning primitive.left
  cases primitive <;> exact hTake

/- An event set that counts on a thread is observed there. -/
theorem observe_source
    {session : Session}
    {codes : List EventCode}
    {count : EventCode → Count}
    {unit : UnitId}
    (hFind :
      s.sets.find? session.handle =
        some (SimulatedSet.counting codes count (.cpu unit)))
    (hCatalogued : s.Catalogued codes)
    {site : Site}
    {node : Nat}
    (hNode :
      site.topology.find? site.root unit .thread = some node)
    (resolver : Resolver)
    (machine : Machine)
    (now : Instant)
    (primitive : Session.Primitive)
    (permanent : Bool) :
    let stored :=
      (session.after primitive).commit primitive ⟨unit, node⟩ now
        (readingsOf s.nameOf count codes) permanent
    Session.observe (source (resolver.resolve machine)) site now
        primitive permanent (s, session) =
      .ok stored.2
        (s.putSet session.handle
          (primitive.left
            (SimulatedSet.counting codes count (.cpu unit))),
          stored.1) := by
  have hNames :=
    eventNames_source hFind
      (by rwa [SimulatedSet.codes_counting])
      (resolver.resolve machine)
  have hLocate := locate_source hFind rfl hNode resolver machine
  have hCall :=
    call_source hFind rfl (resolver.resolve machine) primitive
  rw [SimulatedSet.codes_counting] at hNames
  rw [SimulatedSet.counts_counting] at hCall
  rw [← Session.pair_map]
  exact Session.observe_commit hNames hLocate hCall (by simp) now
    permanent

end Simulated

/- The counters that a mode leaves behind count this much work. -/
def Posting.Mode.remaining (work : Nat) : Posting.Mode → Nat
| .read => work
| .accumulate => 0

theorem Posting.Mode.left_tally
    (weight : EventCode → Count)
    (codes : List EventCode)
    (work : Nat)
    (binding : UnitBinding)
    (mode : Posting.Mode) :
    mode.primitive.left
        (SimulatedSet.counting codes (Simulated.tally weight work)
          binding) =
      SimulatedSet.counting codes
        (Simulated.tally weight (mode.remaining work))
        binding := by
  cases mode with
  | read => rfl
  | accumulate =>
      rw [Posting.Mode.remaining, Simulated.tally_zero_eq]
      exact SimulatedSet.zeroed_counting _ _ _

------------------------------------------------------------
-- Visits
------------------------------------------------------------

/-
  One step of a workload: the unit it moves to, the work that
  is done there, and what the clock shows afterwards.
-/
structure Visit where
  unit : UnitId
  work : UInt64
  now : Instant
deriving DecidableEq, Repr

namespace Visit

/- A visit goes to a thread of the site and does work that fits. -/
structure Possible
    (site : Site)
    (visit : Visit) : Prop where
  located :
    (site.topology.find? site.root visit.unit
      .thread).isSome = true
  fits : (visit.work.toNat : Int) ≤ Count.greatest

/- The work of some visits together. -/
def totalWork (visits : List Visit) : Nat :=
  (visits.map fun visit => visit.work.toNat).sum

/- Move the event set, do the work and take a reading. -/
def perform
    (source : CounterSource Simulated)
    (site : Site)
    (handle : EventSet)
    (mode : Posting.Mode)
    (visit : Visit) : Action Error (Simulated × Session) Unit := do
  Config.underSession (Simulated.migrate handle visit.unit)
  Config.underSession (Simulated.execute handle visit.work)
  discard
    (Session.observe source site visit.now mode.primitive false)

@[simp] theorem totalWork_cons
    (visit : Visit)
    (visits : List Visit) :
    totalWork (visit :: visits) =
      visit.work.toNat + totalWork visits := by
  simp [totalWork]

theorem totalWork_append
    (first second : List Visit) :
    totalWork (first ++ second) =
      totalWork first + totalWork second := by
  simp [totalWork]

/- Perform visits one after another. -/
def performAll
    (source : CounterSource Simulated)
    (site : Site)
    (handle : EventSet)
    (mode : Posting.Mode)
    (visits : List Visit) :
    Action Error (Simulated × Session) Unit :=
  visits.forM (perform source site handle mode)

theorem performAll_append
    (source : CounterSource Simulated)
    (site : Site)
    (handle : EventSet)
    (mode : Posting.Mode)
    (first second : List Visit) :
    performAll source site handle mode (first ++ second) =
      performAll source site handle mode first >>= fun _ =>
        performAll source site handle mode second :=
  List.forM_append

variable {s origin : Simulated}
variable {session : Session}
variable {codes : List EventCode}
variable {work : Nat}
variable {binding : UnitBinding}
variable {visit : Visit}

theorem underSession_ok
    {α : Type}
    {action : Action BackendError Simulated α}
    {answer : α}
    {next : Simulated}
    (hAction : action s = .ok answer next)
    (session : Session) :
    Config.underSession action (s, session) =
      .ok answer (next, session) := by
  simp only [Config.underSession, hAction]

/- Moving an event set and working adds the tallies of the work. -/
theorem work_ok
    {handle : EventSet}
    (hEvents : s.event? = origin.event?)
    (hFind :
      s.sets.find? handle =
        some (SimulatedSet.counting codes
          (Simulated.tally origin.weight work) binding))
    (hFits : (visit.work.toNat : Int) ≤ Count.greatest)
    (hWithin :
      ∀ code ∈ codes,
        Simulated.Within origin.weight
          (work + visit.work.toNat) code) :
    ∃ moved worked : Simulated,
      Simulated.migrate handle visit.unit s = .ok () moved ∧
        Simulated.execute handle visit.work moved =
          .ok () worked ∧
        worked.event? = origin.event? ∧
        worked.sets.find? handle =
          some (SimulatedSet.counting codes
            (Simulated.tally origin.weight
              (work + visit.work.toNat))
            (.cpu visit.unit)) := by
  rcases Count.ofWork?_of_le hFits with ⟨count, hCount, hToInt⟩
  refine ⟨_, _, Simulated.migrate_eq hFind visit.unit,
    Simulated.execute_eq (Simulated.find?_putSet _ _ _) hCount,
    hEvents, ?_⟩
  rw [Simulated.find?_putSet, Simulated.weight_putSet,
    Simulated.weight_congr hEvents,
    ← Simulated.worked_tally hWithin hToInt]
  rfl

/-
  A visit adds its tallies to the counters, and the ledger
  stores them all under the unit that is visited.
-/
theorem perform_ok
    {site : Site}
    (hEvents : s.event? = origin.event?)
    (hFind :
      s.sets.find? session.handle =
        some (SimulatedSet.counting codes
          (Simulated.tally origin.weight work) binding))
    (hCatalogued : origin.Catalogued codes)
    {node : Nat}
    (hNode :
      site.topology.find? site.root visit.unit .thread =
        some node)
    (hFits : (visit.work.toNat : Int) ≤ Count.greatest)
    (hWithin :
      ∀ code ∈ codes,
        Simulated.Within origin.weight
          (work + visit.work.toNat) code)
    (resolver : Resolver)
    (machine : Machine)
    (mode : Posting.Mode) :
    let tally :=
      Simulated.tally origin.weight (work + visit.work.toNat)
    ∃ next : Simulated,
      perform (Simulated.source (resolver.resolve machine)) site
          session.handle mode visit (s, session) =
        .ok ()
          (next,
            { session with
              ledger :=
                session.ledger.apply
                  (.store mode
                    ⟨visit.unit, node,
                      Instant.next visit.now session.latest,
                      readingsOf origin.nameOf tally codes,
                      false⟩) }) ∧
        next.event? = origin.event? ∧
        next.sets.find? session.handle =
          some (SimulatedSet.counting codes
            (Simulated.tally origin.weight
              (mode.remaining (work + visit.work.toNat)))
            (.cpu visit.unit)) := by
  intro tally
  rcases work_ok hEvents hFind hFits hWithin with
    ⟨moved, worked, hMigrate, hExecute, hWorked, hFound⟩
  have hName : worked.nameOf = origin.nameOf :=
    Simulated.nameOf_congr hWorked
  have hKnown : worked.Catalogued codes :=
    hCatalogued.congr hWorked
  have hObserve :=
    Simulated.observe_source hFound hKnown hNode resolver machine
      visit.now mode.primitive false
  rw [hName] at hObserve
  let left :=
    mode.primitive.left
      (SimulatedSet.counting codes tally (.cpu visit.unit))
  refine ⟨worked.putSet session.handle left, ?_, hWorked, ?_⟩
  · unfold perform
    rw [Action.bind_ok (underSession_ok hMigrate session),
      Action.bind_ok (underSession_ok hExecute session)]
    refine (Action.discard_ok hObserve).trans ?_
    cases mode <;> rfl
  · rw [Simulated.find?_putSet]
    exact congrArg some (Posting.Mode.left_tally _ _ _ _ mode)

end Visit

end CoreTally
