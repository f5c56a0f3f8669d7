import CoreTally.Proofs.Config.Simulation
import CoreTally.Proofs.Metric.Gathering

/-
  The workload in accumulate mode. The visits keep each event
  tallied, but they zero the counters and leave a reset pending.
  The stop reads the zeroed counters in place of all that was
  accumulated, so that every event ends with a total of zero.

  Key theorems include:
    * `Config.tallied_stores`
    * `Config.accumulate_mode_loses_all_work`
-/

namespace CoreTally

namespace Config

variable {config : Config}
variable {machines : Nat → Machine}
variable {event : String}

/- In accumulate mode the counters keep nothing. -/
theorem left_of_accumulate
    (hMode : config.counters.mode = .accumulate)
    (visits : Nat) :
    config.left visits = 0 := by
  cases visits with
  | zero => rw [left]
  | succ visits =>
      rw [left, hMode]
      rfl

/- A reset is pending, as before the first visit. -/
theorem pendingReset_stores
    (hMode : config.counters.mode = .accumulate)
    (units : List UnitId) :
    (Ledger.empty.requestReset.replay
        (config.stores machines units)).pendingReset = true := by
  induction units using List.reverseRecOn with
  | nil => rfl
  | append_singleton units unit =>
      rw [stores_concat, hMode, Ledger.replay_append]
      exact Ledger.pendingReset_apply_accumulate _ _

section Known

variable (hUsable : config.Usable)
variable (hCountable : config.Countable)
variable (hMode : config.counters.mode = .accumulate)
variable (hEvent : event ∈ config.counters.events)

include hUsable hCountable hMode hEvent

/- A visit shows its own work only. -/
theorem valuesOf_visitBatch
    (unit : UnitId)
    (step : Nat) :
    (config.visitBatch machines (unit, step)).valuesOf event =
      [shown (1 * config.work)
        (Simulated.withDefaultEvents.codeOf event)] := by
  rw [visitBatch, left_of_accumulate hMode, Nat.zero_add,
    Nat.one_mul]
  exact valuesOf_batch hUsable hCountable hEvent _ _ _

/- The visits keep the event tallied, even if something clips. -/
theorem tallied_stores
    {units : List UnitId}
    (hAdvances :
      Ledger.Along Ledger.Advances Ledger.empty.requestReset
        (config.stores machines units)) :
    (Ledger.empty.requestReset.replay
        (config.stores machines units)).Tallied event := by
  induction units using List.reverseRecOn with
  | nil => exact (Ledger.gathers_fresh event).tallied
  | append_singleton units unit ih =>
      rw [stores_concat, hMode, Ledger.along_concat] at hAdvances
      rw [stores_concat, hMode, Ledger.replay_append]
      apply (ih hAdvances.1).apply_accumulate hAdvances.2
        (valuesOf_visitBatch hUsable hCountable hMode hEvent _ _)
      rw [toInt_shown]
      exact counted_nonneg 1

/- The stop replaces all that was accumulated by nothing. -/
theorem gathers_history
    (hClock :
      ∀ readings ≤ config.simulation.route.length,
        (stamp machines readings).toNat < Instant.greatest) :
    (Ledger.empty.requestReset.replay
        (config.history machines)).Gathers event 0 := by
  have hAdvances := config.advances_history machines hClock
  rw [history, Ledger.along_concat] at hAdvances
  have hTallied :=
    tallied_stores hUsable hCountable hMode hEvent hAdvances.1
  have hValue :
      (config.stopBatch machines
          config.simulation.route).valuesOf event =
        [0] := by
    rw [stopBatch, left_of_accumulate hMode,
      valuesOf_batch hUsable hCountable hEvent, shown,
      Simulated.tally_zero]
  have hNothing :=
    hTallied.refresh (pendingReset_stores hMode _) hAdvances.2
      hValue (Int.le_refl 0)
  rw [history, Ledger.replay_append]
  exact hNothing

end Known

/-
  In accumulate mode a valid configuration of known events leads
  to a stopped session, but the total of every event is zero,
  whatever work has been done.
-/
theorem accumulate_mode_loses_all_work
    {config : Config}
    {machines : Nat → Machine}
    (hValid : config.validate = .ok config)
    (hMode : config.counters.mode = .accumulate)
    (hKnown :
      ∀ event ∈ config.counters.events,
        (Simulated.withDefaultEvents.named? event).isSome = true)
    (hFits :
      (config.simulation.workPerStep.toNat : Int) ≤ Count.greatest)
    (hClock :
      ∀ readings ≤ config.simulation.route.length,
        (stamp machines readings).toNat < Instant.greatest) :
    ∃ session : Session,
      config.simulateOver machines = .ok session ∧
        session.running = false ∧
        ∀ event ∈ config.counters.events,
          (session.metric event none none).toInt = 0 := by
  have hUsable : config.Usable :=
    ((config.validate_eq_ok_iff config).mp hValid).2
  have hCountable : config.Countable := ⟨hKnown, hFits⟩
  refine ⟨_, simulateOver_ok hUsable hCountable machines, rfl, ?_⟩
  intro event hEvent
  have hGathers :=
    gathers_history hUsable hCountable hMode hEvent hClock
  exact hGathers.toInt_holding (by decide)

/- A single visit, with permanent readings. -/
theorem accumulate_mode_loses_all_work_of_one_visit :
    let config : Config :=
      { counters := { mode := .accumulate, permanent := true }
        simulation := { units := [5], workPerStep := 10 } }
    let machines : Nat → Machine := fun step =>
      { clock := .reading 0 (.ofNat (7 * step)) }
    ∃ session : Session,
      config.simulateOver machines = .ok session ∧
        (session.metric "TOT_CYC" none none).toInt = 0 := by
  intro config machines
  have hValid : config.validate = .ok config := rfl
  have hKnown :
      ∀ event ∈ config.counters.events,
        (Simulated.withDefaultEvents.named? event).isSome =
          true := by
    decide
  have hClock :
      ∀ readings ≤ config.simulation.route.length,
        (stamp machines readings).toNat < Instant.greatest := by
    decide
  rcases accumulate_mode_loses_all_work hValid rfl hKnown
    (by decide) hClock with
    ⟨session, hEnd, _, hTotal⟩
  exact ⟨session, hEnd, hTotal "TOT_CYC" (by decide)⟩

/-
  With the default route and work, four million units of work
  count eight million instructions, none of which are left.
-/
theorem accumulate_mode_falls_short :
    let config : Config := { counters := { mode := .accumulate } }
    config.counted "TOT_INS" config.simulation.route.length =
        8000000 ∧
      ((config.simulate {}).toOption.map fun session =>
          session.metric "TOT_INS" none none) =
        some 0 := by
  decide +kernel

end Config

end CoreTally
