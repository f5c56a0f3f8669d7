import CoreTally.Proofs.Config.Validity
import CoreTally.Proofs.Counter.Preparation
import CoreTally.Proofs.Session.Journey
import Mathlib.Data.List.Induction

/-
  The whole workload of a configuration. If the configuration
  is usable and its events are known, nothing fails, and the
  ledger at the end is that of a history that can be told from
  the configuration and the clock alone: one batch of readings
  for every visit, and a last one for the stop.

  Key definitions include:
    * `Config.stamp`
    * `Config.left`
    * `Config.visits`
    * `Config.history`
    * `Config.Reached`
    * `Config.counted`

  Key theorems include:
    * `Config.Reached.visit`
    * `Config.travel_ok`
    * `Config.simulateOver_ok`
-/

namespace CoreTally

/- The mode in which values are stored. -/
def MeasureMode.posting : MeasureMode → Posting.Mode
| read => .read
| accumulate => .accumulate

theorem MeasureMode.primitive_posting
    (mode : MeasureMode) :
    mode.posting.primitive = mode.primitive := by
  cases mode <;> rfl

/- Both modes leave a tally behind. -/
theorem Posting.Mode.kept_tally
    (mode : Posting.Mode)
    (weight : EventCode → Count)
    (work : Nat) :
    mode.kept (Simulated.tally weight work) =
      Simulated.tally weight (mode.remaining work) := by
  cases mode with
  | read => rfl
  | accumulate => exact (Simulated.tally_zero_eq weight).symm

namespace Leg

theorem performAll_append
    (resolver : Resolver)
    (site : Site)
    (handle : EventSet)
    (first second : List Leg) :
    performAll resolver site handle (first ++ second) =
      performAll resolver site handle first >>= fun _ =>
        performAll resolver site handle second :=
  List.forM_append

/- Legs that are performed group by group. -/
theorem forM_performAll
    {ι : Type}
    (resolver : Resolver)
    (site : Site)
    (handle : EventSet)
    (legs : ι → List Leg)
    (items : List ι) :
    (items.forM fun item =>
        performAll resolver site handle (legs item)) =
      performAll resolver site handle (items.flatMap legs) := by
  induction items with
  | nil => rfl
  | cons item items ih =>
      rw [List.flatMap_cons, performAll_append, ← ih]
      rfl

end Leg

namespace Config

------------------------------------------------------------
-- What Is Stored
------------------------------------------------------------

/- The latest instant after some readings. -/
def stamp (machines : Nat → Machine) : Nat → Instant
| 0 => 0
| readings + 1 =>
    Instant.next (machines readings).clock.now
      (stamp machines readings)

variable (config : Config)
variable (machines : Nat → Machine)

/- The work of one visit. -/
def work : Nat :=
  config.simulation.workPerStep.toNat

/- The work that the counters still show after some visits. -/
def left : Nat → Nat
| 0 => 0
| visits + 1 =>
    config.counters.mode.posting.remaining
      (left visits + config.work)

/- The source with its default events, and the whole machine. -/
def setting : Setting where
  origin := Simulated.withDefaultEvents
  codes :=
    config.counters.events.map Simulated.withDefaultEvents.codeOf
  site := config.site

/- What the counters show for some work. -/
def shown (work : Nat) : EventCode → Count :=
  Simulated.tally Simulated.withDefaultEvents.weight work

/- A reading on a unit, after others, of counters that show work. -/
def batch
    (unit : UnitId)
    (readings work : Nat) : Batch where
  unit := unit
  node := config.setting.node unit
  instant := stamp machines (readings + 1)
  readings :=
    readingsOf config.setting.name (shown work) config.setting.codes
  permanent := config.counters.permanent

/- The reading of a visit. -/
def visitBatch : UnitId × Nat → Batch
| (unit, step) =>
    config.batch machines unit step (config.left step + config.work)

/- The readings of visits to some units. -/
def visits (units : List UnitId) : List Batch :=
  units.zipIdx.map (config.visitBatch machines)

/- The reading of the stop after visits to some units. -/
def stopBatch (units : List UnitId) : Batch :=
  config.batch machines (units.getLastD 0) units.length
    (config.left units.length)

/- What visits to some units store. -/
def stores (units : List UnitId) : List Ledger.Operation :=
  (config.visits machines units).map
    (.store config.counters.mode.posting)

/- What the workload stores. -/
def history : List Ledger.Operation :=
  config.stores machines config.simulation.route ++
    [.store .read
      (config.stopBatch machines config.simulation.route)]

theorem visits_concat
    (units : List UnitId)
    (unit : UnitId) :
    config.visits machines (units ++ [unit]) =
      config.visits machines units ++
        [config.visitBatch machines (unit, units.length)] := by
  simp [visits, List.zipIdx_append]

theorem stores_concat
    (units : List UnitId)
    (unit : UnitId) :
    config.stores machines (units ++ [unit]) =
      config.stores machines units ++
        [.store config.counters.mode.posting
          (config.visitBatch machines (unit, units.length))] := by
  rw [stores, visits_concat, List.map_append]
  rfl

theorem latest_stores
    (units : List UnitId) :
    (Ledger.empty.requestReset.replay
        (config.stores machines units)).latest =
      stamp machines units.length := by
  induction units using List.reverseRecOn with
  | nil => rfl
  | append_singleton units unit =>
      rw [stores_concat, Ledger.replay_append, List.length_append]
      exact Ledger.latest_apply_store _ _ _

/- As long as the clock does, what is stored advances. -/
theorem advances_stores
    {units : List UnitId}
    (hClock :
      ∀ readings < units.length,
        (stamp machines readings).toNat < Instant.greatest) :
    Ledger.Along Ledger.Advances Ledger.empty.requestReset
      (config.stores machines units) := by
  induction units using List.reverseRecOn with
  | nil => trivial
  | append_singleton units unit ih =>
      rw [List.length_append, List.length_singleton] at hClock
      have hLast := hClock units.length (Nat.lt_succ_self _)
      rw [stores_concat, Ledger.along_concat]
      refine ⟨ih fun readings hLess =>
        hClock readings (Nat.lt_succ_of_lt hLess), ?_⟩
      rw [Ledger.Advances, latest_stores]
      exact Instant.lt_next hLast

theorem advances_history
    (hClock :
      ∀ readings ≤ config.simulation.route.length,
        (stamp machines readings).toNat < Instant.greatest) :
    Ledger.Along Ledger.Advances Ledger.empty.requestReset
      (config.history machines) := by
  rw [history, Ledger.along_concat]
  constructor
  · apply advances_stores
    intro readings hLess
    exact hClock readings (Nat.le_of_lt hLess)
  · rw [Ledger.Advances, latest_stores]
    exact Instant.lt_next (hClock _ (Nat.le_refl _))

------------------------------------------------------------
-- Visits
------------------------------------------------------------

/- The legs of a visit. -/
def legs : UnitId × Nat → List Leg
| (unit, step) =>
    [.migrate unit, .execute config.simulation.workPerStep,
      .observe (machines step) config.counters.mode.posting
        config.counters.permanent]

/- The legs of visits to some units. -/
def journey (units : List UnitId) : List Leg :=
  units.zipIdx.flatMap (config.legs machines)

theorem visit_eq
    (handle : EventSet)
    (unit : UnitId)
    (step : Nat) :
    config.visit (machines step) config.site handle unit =
      Leg.performAll ⟨config.topology.procfsRoot⟩ config.site
        handle (config.legs machines (unit, step)) := by
  simp [visit, legs, Leg.performAll, Leg.perform, observe, source,
    MeasureMode.primitive_posting]

theorem visits_eq
    (handle : EventSet)
    (units : List UnitId) :
    (units.zipIdx.forM fun (unit, step) =>
        config.visit (machines step) config.site handle unit) =
      Leg.performAll ⟨config.topology.procfsRoot⟩ config.site
        handle (config.journey machines units) := by
  rw [journey, ← Leg.forM_performAll]
  congr 1
  funext ⟨unit, step⟩
  exact config.visit_eq machines handle unit step

/- Where visits to some units have led to. -/
structure Reached
    (units : List UnitId)
    (standing : Standing) : Prop where
  unit : standing.unit = units.getLastD 0
  count : standing.count = shown (config.left units.length)
  ledger :
    standing.ledger =
      Ledger.empty.requestReset.replay
        (config.stores machines units)

variable {config}
variable {machines}

/- The default events count work, and never backwards. -/
theorem defaultWeight_nonneg
    (code : EventCode) :
    0 ≤ (Simulated.withDefaultEvents.weight code).toInt := by
  have hEvents :
      ∀ event ∈ Simulated.withDefaultEvents.catalog,
        0 ≤ event.weight.toInt := by
    decide
  rw [Simulated.weight]
  cases hFound : Simulated.withDefaultEvents.event? code with
  | none => decide
  | some event =>
      exact hEvents event (List.mem_of_find?_eq_some hFound)

/- Another visit reads what is left, together with its own work. -/
theorem Reached.visit
    {units : List UnitId}
    {standing : Standing}
    (hReached : config.Reached machines units standing)
    (hFits : (config.work : Int) ≤ Count.greatest)
    (unit : UnitId) :
    config.Reached machines (units ++ [unit])
      (config.setting.run standing
        (config.legs machines (unit, units.length))) := by
  have hWorked :
      config.setting.worked config.simulation.workPerStep
          standing.count =
        shown (config.left units.length + config.work) := by
    funext code
    rw [hReached.count]
    exact Simulated.plus_times_tally_of_nonneg _
      (defaultWeight_nonneg code) hFits
  have hBatch :
      config.setting.batch
          { standing with
            unit
            count := shown (config.left units.length + config.work) }
          (machines units.length).clock.now
          config.counters.permanent =
        config.visitBatch machines (unit, units.length) := by
    rw [Setting.batch, hReached.ledger, latest_stores]
    rfl
  have hRun :
      config.setting.run standing
          (config.legs machines (unit, units.length)) =
        { unit
          count :=
            config.counters.mode.posting.kept
              (shown (config.left units.length + config.work))
          ledger :=
            standing.ledger.apply
              (.store config.counters.mode.posting
                (config.visitBatch machines
                  (unit, units.length))) } := by
    simp only [legs, Setting.run, List.foldl_cons, List.foldl_nil,
      Setting.step, hWorked, hBatch]
  rw [hRun]
  constructor
  · simp
  · rw [List.length_append, List.length_singleton, left]
    exact Posting.Mode.kept_tally _ _ _
  · rw [stores_concat, Ledger.replay_append, ← hReached.ledger]
    rfl

/- Visits lead where they should, from the start. -/
theorem reached_run
    (hFits : (config.work : Int) ≤ Count.greatest)
    (units : List UnitId) :
    config.Reached machines units
      (config.setting.run (Setting.start 0)
        (config.journey machines units)) := by
  induction units using List.reverseRecOn with
  | nil =>
      refine ⟨rfl, ?_, rfl⟩
      exact (Simulated.tally_zero_eq _).symm
  | append_singleton units unit ih =>
      have hJourney :
          config.journey machines (units ++ [unit]) =
            config.journey machines units ++
              config.legs machines (unit, units.length) := by
        simp [journey, List.zipIdx_append]
      rw [hJourney, Setting.run, List.foldl_append]
      exact ih.visit hFits unit

------------------------------------------------------------
-- Amounts
------------------------------------------------------------

/- How often a unit of work counts for an event. -/
def weight (event : String) : Int :=
  (Simulated.withDefaultEvents.weight
    (Simulated.withDefaultEvents.codeOf event)).toInt

/- What all the work of some visits counts for an event. -/
def counted
    (config : Config)
    (event : String)
    (visits : Nat) : Int :=
  min (weight event * (visits * config.work : Nat)) Count.greatest

variable {event : String}

theorem weight_nonneg
    (event : String) :
    0 ≤ weight event :=
  defaultWeight_nonneg _

@[simp] theorem counted_zero :
    config.counted event 0 = 0 := by
  simp [counted, Count.greatest]

theorem counted_nonneg
    (visits : Nat) :
    0 ≤ config.counted event visits :=
  le_min
    (Int.mul_nonneg (weight_nonneg event) (Int.natCast_nonneg _))
    (by decide)

theorem toInt_shown
    (visits : Nat) :
    (shown (visits * config.work)
        (Simulated.withDefaultEvents.codeOf event)).toInt =
      config.counted event visits :=
  Simulated.toInt_tally_nonneg (defaultWeight_nonneg _)

------------------------------------------------------------
-- The Whole Workload
------------------------------------------------------------

/- The events are known, and a visit does no more than counts hold. -/
structure Countable (config : Config) : Prop where
  known :
    ∀ event ∈ config.counters.events,
      (Simulated.withDefaultEvents.named? event).isSome = true
  fits : (config.work : Int) ≤ Count.greatest

theorem Usable.catalogued
    (hUsable : config.Usable)
    (hCountable : config.Countable) :
    config.setting.origin.Catalogued config.setting.codes :=
  Simulated.catalogued_codes Simulated.consistent_withDefaultEvents
    hUsable.counters.some hUsable.counters.distinct
    hCountable.known

theorem events_batch
    (hCountable : config.Countable)
    (unit : UnitId)
    (readings work : Nat) :
    (config.batch machines unit readings work).events =
      config.counters.events := by
  rw [Batch.events, batch, readingsOf, List.map_map]
  exact Simulated.consistent_withDefaultEvents.map_nameOf_codeOf
    hCountable.known

/- Every event is listed once, with what its counter shows. -/
theorem valuesOf_batch
    (hUsable : config.Usable)
    (hCountable : config.Countable)
    (hEvent : event ∈ config.counters.events)
    (unit : UnitId)
    (readings work : Nat) :
    (config.batch machines unit readings work).valuesOf event =
      [shown work (Simulated.withDefaultEvents.codeOf event)] := by
  have hCatalogued := hUsable.catalogued hCountable
  have hName :
      config.setting.name
          (Simulated.withDefaultEvents.codeOf event) =
        event :=
    Simulated.consistent_withDefaultEvents.nameOf_codeOf
      (hCountable.known event hEvent)
  have hValues :=
    filter_readingsOf hCatalogued.distinct (shown work)
      (List.mem_map_of_mem hEvent)
  change
    ((readingsOf config.setting.name (shown work)
        config.setting.codes).filter
      (·.event ==
        config.setting.name
          (Simulated.withDefaultEvents.codeOf event))).map
        Reading.value = _ at hValues
  rwa [hName] at hValues

theorem Usable.possible
    (hUsable : config.Usable)
    (hCountable : config.Countable) :
    ∀ leg ∈ config.journey machines config.simulation.route,
      leg.Possible config.setting.site := by
  intro leg hLeg
  rcases List.mem_flatMap.mp hLeg with ⟨⟨unit, step⟩, hVisit, hOwn⟩
  have hUnit : unit ∈ config.simulation.route :=
    List.fst_mem_of_mem_zipIdx hVisit
  simp only [legs, List.mem_cons, List.not_mem_nil, or_false]
    at hOwn
  rcases hOwn with rfl | rfl | rfl
  · exact hUsable.located hUnit
  · exact hCountable.fits
  · trivial

/- Stopping reads what is left once more. -/
theorem Reached.stop_ok
    {units : List UnitId}
    {standing : Standing}
    (hReached : config.Reached machines units standing)
    (hCatalogued :
      config.setting.origin.Catalogued config.setting.codes)
    {s : Simulated}
    {session : Session}
    (hDescribes :
      standing.Describes config.setting session.handle s)
    (hLedger : session.ledger = standing.ledger) :
    ∃ (instant : Instant) (next : Simulated),
      config.observe (machines units.length) config.site .stop
          (s, session) =
        .ok instant
          (next,
            { session with
              running := false
              ledger :=
                standing.ledger.apply
                  (.store .read
                    (config.stopBatch machines units)) }) := by
  let machine := machines units.length
  have hStop :=
    Simulated.observe_source hDescribes.found
      (hCatalogued.congr hDescribes.events)
      hDescribes.located.find?_eq ⟨config.topology.procfsRoot⟩
      machine machine.clock.now .stop config.counters.permanent
  have hBatch :
      config.setting.batch standing machine.clock.now
          config.counters.permanent =
        config.stopBatch machines units := by
    rw [Setting.batch, hReached.unit, hReached.count,
      hReached.ledger, latest_stores]
    rfl
  let left :=
    Session.Primitive.stop.left
      (SimulatedSet.counting config.setting.codes standing.count
        (.cpu standing.unit))
  refine ⟨(config.stopBatch machines units).instant,
    s.putSet session.handle left, hStop.trans ?_⟩
  rw [Simulated.nameOf_congr hDescribes.events, ← hBatch, ← hLedger,
    Setting.batch, ← hLedger]
  rfl

/- The route is visited, and then the event set is stopped. -/
theorem travel_ok
    (hUsable : config.Usable)
    (hCountable : config.Countable)
    {handle : EventSet}
    {s : Simulated}
    (hDescribes :
      (Setting.start 0).Describes config.setting handle s)
    (machines : Nat → Machine) :
    ∃ next : Simulated,
      config.travel machines config.site handle
          (s, Session.fresh handle) =
        .ok ()
          (next,
            { handle
              running := false
              ledger :=
                Ledger.empty.requestReset.replay
                  (config.history machines) }) := by
  have hCatalogued := hUsable.catalogued hCountable
  have hPossible :
      ∀ leg ∈ config.journey machines config.simulation.route,
        leg.Possible config.setting.site :=
    hUsable.possible hCountable
  let reached :=
    config.setting.run (Setting.start 0)
      (config.journey machines config.simulation.route)
  have hReached :
      config.Reached machines config.simulation.route reached :=
    reached_run hCountable.fits config.simulation.route
  have hFresh :
      (Session.fresh handle).ledger = (Setting.start 0).ledger :=
    rfl
  rcases Leg.performAll_ok hDescribes hCatalogued hFresh hPossible
    ⟨config.topology.procfsRoot⟩ with
    ⟨visited, hVisits, hEnd⟩
  let arrived : Session := ⟨handle, true, reached.ledger⟩
  have hThere :
      reached.Describes config.setting arrived.handle visited :=
    hEnd
  rcases hReached.stop_ok hCatalogued hThere rfl with
    ⟨instant, next, hStop⟩
  refine ⟨next, ?_⟩
  rw [travel, visits_eq]
  refine (Action.bind_ok hVisits).trans
    ((Action.discard_ok hStop).trans ?_)
  rw [hReached.ledger, history, Ledger.replay_append]
  rfl

/-
  A usable configuration of known events runs through. The
  session at the end is stopped, and has stored the history.
-/
theorem simulateOver_ok
    (hUsable : config.Usable)
    (hCountable : config.Countable)
    (machines : Nat → Machine) :
    config.simulateOver machines =
      .ok
        { handle := 1
          running := false
          ledger :=
            Ledger.empty.requestReset.replay
              (config.history machines) } := by
  rcases config.prepare_ok hCountable.known with
    ⟨prepared, hPrepare, hCatalog, hIdle⟩
  have hEvents :
      prepared.event? = Simulated.withDefaultEvents.event? := by
    funext code
    rw [Simulated.event?, hCatalog]
    rfl
  have hCodes : config.setting.codes ≠ [] := by
    simpa [setting] using hUsable.counters.some
  have hStart :
      Simulated.start 1 prepared =
        .ok ()
          (prepared.putSet 1
            (SimulatedSet.counting config.setting.codes
              (fun _ => 0) (.cpu 0))) :=
    Simulated.start_ok hIdle hCodes
  have hDescribes :
      (Setting.start 0).Describes config.setting 1
        (prepared.putSet 1
          (SimulatedSet.counting config.setting.codes
            (fun _ => 0) (.cpu 0))) :=
    ⟨hEvents, hUsable.located_zero, Simulated.find?_putSet _ _ _⟩
  rcases travel_ok hUsable hCountable hDescribes machines with
    ⟨next, hTravel⟩
  have hHandle : Simulated.withDefaultEvents.nextSet = 1 := rfl
  rw [hHandle] at hPrepare
  simp only [simulateOver, hPrepare, hStart, hTravel]

end Config

end CoreTally
