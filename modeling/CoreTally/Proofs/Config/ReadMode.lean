import CoreTally.Proofs.Config.Simulation
import CoreTally.Proofs.Metric.Attribution
import CoreTally.Proofs.Metric.Gathering

/-
  The workload in read mode. Every reading shows all work since
  the start, so that the last one, which the stop takes, is the
  total of its event. Each unit is left with what was counted
  on the visits to it.

  Key definitions include:
    * `Config.earned`

  Key theorems include:
    * `Ledger.Gathers.replay_reads`
    * `Ledger.contains_replay_reads`
    * `Config.creditedTo_readings`
    * `Config.read_mode_accounts_for_all_work`
-/

namespace CoreTally

open EventSeries

------------------------------------------------------------
-- Runs of Reads
------------------------------------------------------------

/- The last batch credits its unit with its own increase. -/
theorem Batch.creditedTo_concat
    (event : String)
    (unit : UnitId)
    (previous : Int)
    (batches : List Batch)
    (last : Batch) :
    Batch.creditedTo event unit previous (batches ++ [last]) =
      Batch.creditedTo event unit previous batches +
        if last.unit = unit then
          last.raw event -
            (batches.map (Batch.raw event)).getLastD previous
        else
          0 := by
  induction batches generalizing previous with
  | nil => simp [Batch.creditedTo]
  | cons batch rest ih =>
      rw [List.cons_append, Batch.creditedTo, ih,
        Batch.creditedTo, List.map_cons, List.getLastD_cons,
        Int.add_assoc]

namespace Ledger

variable {event : String}

/- Reads of values that never decrease leave the last one. -/
theorem Gathers.replay_reads
    {ledger : Ledger}
    {total : Int}
    (hGathers : ledger.Gathers event total)
    {batches : List Batch}
    (hAdvances : Along Advances ledger (reads batches))
    (hOnce : ∀ batch ∈ batches, batch.ListsOnce event)
    (hAscending :
      (total :: batches.map (Batch.raw event)).IsChain (· ≤ ·)) :
    (ledger.replay (reads batches)).Gathers event
      ((batches.map (Batch.raw event)).getLastD total) := by
  induction batches generalizing ledger total with
  | nil => exact hGathers
  | cons batch rest ih =>
      rcases List.forall_mem_cons.mp hOnce with ⟨hBatch, hRest⟩
      rcases List.isChain_cons_cons.mp hAscending with
        ⟨hMore, hChain⟩
      rcases Batch.exists_valuesOf_eq hBatch with
        ⟨value, hValue, hRaw⟩
      rw [← hRaw] at hMore
      have hRead :=
        hGathers.apply_read hAdvances.1 hValue
          (Int.le_trans hGathers.nonneg hMore) fun _ => hMore
      rw [hRaw] at hRead
      rw [List.map_cons, List.getLastD_cons]
      exact ih hRead hAdvances.2 hRest hChain

/- Reads add the units that report, and no other ones. -/
theorem contains_replay_reads
    (ledger : Ledger)
    (batches : List Batch)
    (unit : UnitId) :
    ((ledger.replay (reads batches)).opened
          .read).participants.contains unit = true ↔
      unit ∈ batches.map Batch.unit ∨
        (ledger.opened .read).participants.contains unit =
          true := by
  induction batches using List.reverseRecOn with
  | nil => simp [reads]
  | append_singleton batches batch ih =>
      have hReads :
          reads (batches ++ [batch]) =
            reads batches ++ [.store .read batch] := by
        simp [reads]
      rw [hReads, replay_append, replay_cons, replay_nil,
        opened_of_notPending (pendingReset_apply_read _ _),
        contains_apply_store_iff, ih]
      simp only [List.map_append, List.map_cons, List.map_nil,
        List.mem_append, List.mem_singleton]
      tauto

end Ledger

namespace Config

------------------------------------------------------------
-- Amounts
------------------------------------------------------------

/- What is counted for an event on the visits to a unit. -/
def earned
    (config : Config)
    (units : List UnitId)
    (event : String)
    (unit : UnitId) : Int :=
  (units.zipIdx.map fun (visited, step) =>
    if visited = unit then
      config.counted event (step + 1) - config.counted event step
    else
      0).sum

variable {config : Config}
variable {machines : Nat → Machine}
variable {event : String}

theorem counted_mono
    {visits more : Nat}
    (hLess : visits ≤ more) :
    config.counted event visits ≤ config.counted event more := by
  apply min_le_min_right
  exact Int.mul_le_mul_of_nonneg_left
    (Int.ofNat_le.mpr (Nat.mul_le_mul_right _ hLess))
    (weight_nonneg _)

theorem earned_concat
    (units : List UnitId)
    (unit last : UnitId) :
    config.earned (units ++ [last]) event unit =
      config.earned units event unit +
        if last = unit then
          config.counted event (units.length + 1) -
            config.counted event units.length
        else
          0 := by
  simp [earned, List.zipIdx_append]

/- In read mode the counters keep what they have counted. -/
theorem left_of_read
    (hMode : config.counters.mode = .read)
    (visits : Nat) :
    config.left visits = visits * config.work := by
  induction visits with
  | zero => rw [Nat.zero_mul, left]
  | succ visits ih =>
      rw [left, ih, hMode, Nat.succ_mul]
      rfl

------------------------------------------------------------
-- Readings
------------------------------------------------------------

/- All readings of visits to some units, and of the stop. -/
def readings
    (config : Config)
    (machines : Nat → Machine)
    (units : List UnitId) : List Batch :=
  config.visits machines units ++ [config.stopBatch machines units]

/- They are all readings of the same counters. -/
theorem exists_of_mem_readings
    {units : List UnitId}
    {reading : Batch}
    (hReading : reading ∈ config.readings machines units) :
    ∃ (unit : UnitId) (count work : Nat),
      reading = config.batch machines unit count work := by
  rcases List.mem_append.mp hReading with hVisit | hStop
  · rcases List.mem_map.mp hVisit with ⟨⟨unit, step⟩, _, rfl⟩
    exact ⟨unit, step, _, rfl⟩
  · rw [List.mem_singleton.mp hStop]
    exact ⟨_, _, _, rfl⟩

theorem history_of_read
    (hMode : config.counters.mode = .read) :
    config.history machines =
      Ledger.reads
        (config.readings machines config.simulation.route) := by
  rw [history, stores, hMode, readings, Ledger.reads,
    List.map_append]
  rfl

/- The units that report are those that are visited. -/
theorem mem_units_readings_iff
    {units : List UnitId}
    (hUnits : units ≠ [])
    (unit : UnitId) :
    unit ∈ (config.readings machines units).map Batch.unit ↔
      unit ∈ units := by
  have hVisits :
      (config.visits machines units).map Batch.unit = units := by
    rw [visits, List.map_map]
    exact List.zipIdx_map_fst 0 units
  rw [readings, List.map_append, hVisits, List.map_singleton,
    List.mem_append, List.mem_singleton]
  rcases List.eq_nil_or_concat units with rfl | ⟨init, last, rfl⟩
  · contradiction
  · simp [stopBatch, batch]

section Known

variable (hUsable : config.Usable)
variable (hCountable : config.Countable)
variable (hMode : config.counters.mode = .read)
variable (hEvent : event ∈ config.counters.events)

include hUsable hCountable hEvent

theorem listsOnce_readings
    (units : List UnitId) :
    ∀ batch ∈ config.readings machines units,
      batch.ListsOnce event := by
  intro batch hBatch
  rcases exists_of_mem_readings hBatch with
    ⟨unit, count, work, rfl⟩
  rw [Batch.ListsOnce, valuesOf_batch hUsable hCountable hEvent]
  rfl

theorem raw_batch
    (unit : UnitId)
    (readings visits : Nat) :
    (config.batch machines unit readings
        (visits * config.work)).raw event =
      config.counted event visits := by
  rw [Batch.raw, valuesOf_batch hUsable hCountable hEvent,
    ← toInt_shown]
  exact Int.add_zero _

include hMode

theorem raw_visitBatch
    (unit : UnitId)
    (step : Nat) :
    (config.visitBatch machines (unit, step)).raw event =
      config.counted event (step + 1) := by
  rw [visitBatch, left_of_read hMode, ← Nat.succ_mul]
  exact raw_batch hUsable hCountable hEvent _ _ _

theorem raw_stopBatch
    (units : List UnitId) :
    (config.stopBatch machines units).raw event =
      config.counted event units.length := by
  rw [stopBatch, left_of_read hMode]
  exact raw_batch hUsable hCountable hEvent _ _ _

/- Visit by visit the values are those counted so far. -/
theorem raw_visits
    (units : List UnitId) :
    (config.visits machines units).map (Batch.raw event) =
      (List.range units.length).map fun step =>
        config.counted event (step + 1) := by
  induction units using List.reverseRecOn with
  | nil => rfl
  | append_singleton units unit ih =>
      rw [visits_concat, List.map_append, ih, List.length_append,
        List.length_singleton, List.range_succ, List.map_append,
        List.map_singleton, List.map_singleton,
        raw_visitBatch hUsable hCountable hMode hEvent]

/- No value is less than the one before. -/
theorem ascending_readings
    (units : List UnitId) :
    (0 :: (config.readings machines units).map
      (Batch.raw event)).IsChain (· ≤ ·) := by
  have hValues :
      0 :: (config.readings machines units).map (Batch.raw event) =
        (List.range (units.length + 1)).map
            (config.counted event) ++
          [config.counted event units.length] := by
    rw [readings, List.map_append, List.map_singleton,
      raw_visits hUsable hCountable hMode hEvent,
      raw_stopBatch hUsable hCountable hMode hEvent,
      List.range_succ_eq_map, List.map_cons, counted_zero,
      List.map_map, List.cons_append]
    rfl
  rw [hValues, List.isChain_iff_pairwise, List.pairwise_append]
  refine ⟨?_, List.pairwise_singleton _ _, ?_⟩
  · rw [List.pairwise_map]
    exact List.pairwise_le_range.imp counted_mono
  · intro value hValue last hLast
    rcases List.mem_map.mp hValue with ⟨visits, hVisits, rfl⟩
    rw [List.mem_singleton.mp hLast]
    exact counted_mono
      (Nat.le_of_lt_succ (List.mem_range.mp hVisits))

/-
  A unit is credited with what was counted on the visits to
  it. The stop finds nothing more to credit.
-/
theorem creditedTo_readings
    (units : List UnitId)
    (unit : UnitId) :
    Batch.creditedTo event unit 0
        (config.readings machines units) =
      config.earned units event unit := by
  have hLast :
      ∀ visited : List UnitId,
        ((config.visits machines visited).map
            (Batch.raw event)).getLastD 0 =
          config.counted event visited.length := by
    intro visited
    rw [raw_visits hUsable hCountable hMode hEvent]
    cases visited.length with
    | zero => exact counted_zero.symm
    | succ visits => simp [List.range_succ]
  have hVisits :
      Batch.creditedTo event unit 0
          (config.visits machines units) =
        config.earned units event unit := by
    induction units using List.reverseRecOn with
    | nil => rfl
    | append_singleton units last ih =>
        rw [visits_concat, Batch.creditedTo_concat, ih, hLast,
          raw_visitBatch hUsable hCountable hMode hEvent,
          earned_concat]
        rfl
  rw [readings, Batch.creditedTo_concat, hVisits, hLast,
    raw_stopBatch hUsable hCountable hMode hEvent, Int.sub_self,
    ite_self, Int.add_zero]

/- The total of an event is all that was counted for it. -/
theorem gathers_readings
    {units : List UnitId}
    (hAdvances :
      Ledger.Along Ledger.Advances Ledger.empty.requestReset
        (Ledger.reads (config.readings machines units))) :
    (Ledger.empty.requestReset.replay
        (Ledger.reads (config.readings machines units))).Gathers
      event (config.counted event units.length) := by
  have hGathers :=
    (Ledger.gathers_fresh event).replay_reads hAdvances
      (listsOnce_readings hUsable hCountable hEvent units)
      (ascending_readings hUsable hCountable hMode hEvent units)
  rwa [readings, List.map_append, List.map_singleton,
    List.getLastD_concat,
    raw_stopBatch hUsable hCountable hMode hEvent] at hGathers

/-
  Without permanent readings, a unit has a single entry if it
  was visited, and none otherwise.
-/
theorem entries_readings
    (hTemporary : config.counters.permanent = false)
    {units : List UnitId}
    (hUnits : units ≠ [])
    (unit : UnitId) :
    let ledger :=
      Ledger.empty.requestReset.replay
        (Ledger.reads (config.readings machines units))
    let own := onUnit unit (ledger.store.seriesOf event)
    (unit ∉ units → own.entries = []) ∧
      (unit ∈ units →
        ∃ value : Count,
          value.toInt = config.earned units event unit ∧
            own.entries = [⟨ledger.latest, value, false⟩]) := by
  intro ledger own
  have hSome : config.readings machines units ≠ [] := by
    simp [readings]
  have hStart :
      Spread (fun _ => []) (fun _ => none)
        Ledger.empty.requestReset.latest 0
        ((Ledger.empty.requestReset.opened .read).store.seriesOf
          event) :=
    Spread.nil 0
  have hOwnTemporary :
      ∀ batch ∈ config.readings machines units,
        batch.permanent = false := by
    intro batch hBatch
    rcases exists_of_mem_readings hBatch with
      ⟨own, count, work, rfl⟩
    exact hTemporary
  rcases Ledger.spread_replay hStart (Int.le_refl 0) (by decide)
    hOwnTemporary
    (listsOnce_readings hUsable hCountable hEvent units)
    (ascending_readings hUsable hCountable hMode hEvent units) with
    ⟨_, credit, ⟨total, hSpread⟩, hCredit⟩
  rw [Ledger.opened_of_notPending
    (Ledger.pendingReset_replay_reads hSome _)] at hSpread
  have hHolds := hSpread.holds unit
  rcases hCredit unit with ⟨hWorth, hCredited⟩
  rw [mem_units_readings_iff hUnits] at hCredited
  rw [creditedTo_readings hUsable hCountable hMode hEvent] at hWorth
  constructor
  · intro hAbsent
    have hNone : credit unit = none := by
      simpa [hAbsent] using hCredited
    rw [hNone] at hHolds
    exact hHolds
  · intro hPresent
    rcases Option.isSome_iff_exists.mp
      (hCredited.mpr (.inr hPresent)) with ⟨value, hValue⟩
    rw [hValue] at hHolds hWorth
    refine ⟨value, ?_, hHolds⟩
    simpa using hWorth

end Known

------------------------------------------------------------
-- The Session at the End
------------------------------------------------------------

/- No other units take part than those that are visited. -/
theorem contains_readings_iff
    {units : List UnitId}
    (hUnits : units ≠ [])
    (unit : UnitId) :
    (Ledger.empty.requestReset.replay
          (Ledger.reads
            (config.readings machines units))).participants.contains
        unit = true ↔
      unit ∈ units := by
  have hSome : config.readings machines units ≠ [] := by
    simp [readings]
  have hNone :
      (Ledger.empty.requestReset.opened
        .read).participants.contains unit = false := rfl
  have hReads :=
    Ledger.contains_replay_reads Ledger.empty.requestReset
      (config.readings machines units) unit
  rw [Ledger.opened_of_notPending
    (Ledger.pendingReset_replay_reads hSome _), hNone,
    mem_units_readings_iff hUnits] at hReads
  simpa using hReads

/- No other events are stored than those that are counted. -/
theorem mem_events_of_isSome
    (hCountable : config.Countable)
    {units : List UnitId}
    {unit : UnitId}
    (hFound :
      ((Ledger.empty.requestReset.replay
          (Ledger.reads
            (config.readings machines units))).store.unitSeries?
        event unit).isSome = true) :
    event ∈ config.counters.events := by
  let history :=
    .reset :: Ledger.reads (config.readings machines units)
  have hStored :
      event ∈ (Ledger.empty.replay history).store.names :=
    ((Ledger.sound_replay history).mem_names_iff event).mpr
      ⟨unit, hFound⟩
  rcases List.mem_flatMap.mp
    (Ledger.names_replay_subset history hStored) with
    ⟨operation, hOperation, hListed⟩
  rcases List.mem_cons.mp hOperation with rfl | hRead
  · simp [Ledger.Operation.events] at hListed
  · rcases List.mem_map.mp hRead with ⟨batch, hBatch, rfl⟩
    rcases exists_of_mem_readings hBatch with
      ⟨own, count, work, rfl⟩
    rw [Ledger.Operation.events, events_batch hCountable]
      at hListed
    exact hListed

/- What is stored without permanent readings, and nothing else. -/
theorem unitSeries?_readings_iff
    (hUsable : config.Usable)
    (hCountable : config.Countable)
    (hMode : config.counters.mode = .read)
    (hTemporary : config.counters.permanent = false)
    {units : List UnitId}
    (hUnits : units ≠ [])
    {unit : UnitId}
    {series : Series} :
    let ledger :=
      Ledger.empty.requestReset.replay
        (Ledger.reads (config.readings machines units))
    ledger.store.unitSeries? event unit = some series ↔
      event ∈ config.counters.events ∧
        unit ∈ units ∧
        ∃ value : Count,
          value.toInt = config.earned units event unit ∧
            series = ⟨unit, [⟨ledger.latest, value, false⟩]⟩ := by
  intro ledger
  have hSound : ledger.store.Sound :=
    Ledger.sound_replay
      (.reset :: Ledger.reads (config.readings machines units))
  constructor
  · intro hSeries
    have hEvent : event ∈ config.counters.events :=
      mem_events_of_isSome hCountable
        (Option.isSome_iff_exists.mpr ⟨series, hSeries⟩)
    rcases entries_readings hUsable hCountable hMode hEvent
      hTemporary hUnits unit with ⟨hAbsent, hPresent⟩
    by_cases hUnit : unit ∈ units
    · rcases hPresent hUnit with ⟨value, hValue, hEntries⟩
      have hFound :=
        Store.unitSeries?_of_entries hEntries (by simp)
      exact ⟨hEvent, hUnit, value, hValue,
        Option.some.inj (hSeries.symm.trans hFound)⟩
    · have hFound := hSound.unitSeries?_eq event unit
      rw [if_pos (hAbsent hUnit), hSeries] at hFound
      contradiction
  · rintro ⟨hEvent, hUnit, value, hValue, rfl⟩
    rcases (entries_readings hUsable hCountable hMode hEvent
      hTemporary hUnits unit).2 hUnit with
      ⟨other, hOther, hEntries⟩
    have hSame : other = value :=
      Int64.toInt_inj.mp (hOther.trans hValue.symm)
    rw [hSame] at hEntries
    exact Store.unitSeries?_of_entries hEntries (by simp)

/-
  In read mode a valid configuration of known events leads to a
  stopped session that accounts for all work. The total of each
  event is what its counter has counted, the units are those of
  the configuration, and without permanent readings each unit
  holds a single entry per event, of the latest instant, with
  what was counted on the visits to it.
-/
theorem read_mode_accounts_for_all_work
    {config : Config}
    {machines : Nat → Machine}
    (hValid : config.validate = .ok config)
    (hMode : config.counters.mode = .read)
    (hKnown :
      ∀ event ∈ config.counters.events,
        (Simulated.withDefaultEvents.named? event).isSome = true)
    (hFits :
      (config.simulation.workPerStep.toNat : Int) ≤ Count.greatest)
    (hClock :
      ∀ readings ≤ config.simulation.route.length,
        (stamp machines readings).toNat < Instant.greatest) :
    let route := config.simulation.route
    ∃ session : Session,
      config.simulateOver machines = .ok session ∧
        session.running = false ∧
        (∀ event ∈ config.counters.events,
          (session.metric event none none).toInt =
            config.counted event route.length) ∧
        session.units.Pairwise (· < ·) ∧
        (∀ unit,
          unit ∈ session.units ↔
            unit ∈ config.simulation.units) ∧
        (config.counters.permanent = false →
          ∀ event unit series,
            session.series? event unit = some series ↔
              event ∈ config.counters.events ∧
                unit ∈ config.simulation.units ∧
                ∃ value : Count,
                  value.toInt = config.earned route event unit ∧
                    series =
                      ⟨unit,
                        [⟨session.latest, value, false⟩]⟩) := by
  intro route
  have hUsable : config.Usable :=
    ((config.validate_eq_ok_iff config).mp hValid).2
  have hCountable : config.Countable := ⟨hKnown, hFits⟩
  have hRoute : route ≠ [] := hUsable.route_ne_nil
  have hAdvances := config.advances_history machines hClock
  have hEnd := simulateOver_ok hUsable hCountable machines
  rw [history_of_read hMode] at hAdvances hEnd
  refine ⟨_, hEnd, rfl, ?_, ?_, ?_, ?_⟩
  · intro event hEvent
    have hGathers :=
      gathers_readings hUsable hCountable hMode hEvent hAdvances
    exact hGathers.toInt_holding (min_le_right _ _)
  · apply List.pairwise_map.mpr
    exact (OrderedMap.sorted _).imp Std.compare_eq_lt.mp
  · intro unit
    rw [← SimulationConfig.mem_route_iff, Session.units,
      OrderedMap.mem_keys_iff, ← Option.isSome_iff_exists]
    exact contains_readings_iff hRoute unit
  · intro hTemporary event unit series
    rw [← SimulationConfig.mem_route_iff]
    exact unitSeries?_readings_iff hUsable hCountable hMode
      hTemporary hRoute

/-
  A trip over three units and back to the first one, with ten
  units of work on each visit, while the clock moves on.
-/
theorem read_mode_accounts_for_all_work_round_trip :
    let config : Config :=
      { simulation := { units := [0, 1, 2], workPerStep := 10 } }
    let machines : Nat → Machine := fun step =>
      { clock := .reading 0 (.ofNat (7 * step)) }
    ∃ session : Session,
      config.simulateOver machines = .ok session ∧
        (session.metric "TOT_INS" none none).toInt = 80 ∧
        session.series? "TOT_INS" 0 =
          some ⟨0, [⟨session.latest, 40, false⟩]⟩ := by
  intro config machines
  have hValid : config.validate = .ok config := by rfl
  have hKnown :
      ∀ event ∈ config.counters.events,
        (Simulated.withDefaultEvents.named? event).isSome =
          true := by
    decide
  have hClock :
      ∀ readings ≤ config.simulation.route.length,
        (stamp machines readings).toNat < Instant.greatest := by
    decide
  rcases read_mode_accounts_for_all_work hValid rfl hKnown
    (by decide) hClock with
    ⟨session, hEnd, _, hTotal, _, _, hSeries⟩
  refine ⟨session, hEnd, ?_, ?_⟩
  · rw [hTotal "TOT_INS" (by decide)]
    decide
  · apply (hSeries rfl _ _ _).mpr
    exact ⟨by decide, by decide, 40, by decide, rfl⟩

end Config

end CoreTally
