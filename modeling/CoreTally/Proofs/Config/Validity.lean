import CoreTally.Config.Validation
import CoreTally.Config.Workload
import CoreTally.Proofs.Topology.Uniform

/-
  What a configuration without problems promises: there are
  events with different names, and a route with work to do, all
  of whose units are threads of the machine of the workload. What
  breaks a promise is refused, so validation, which calculates
  with the dimensions only, agrees with the machine as it is built.

  Key definitions include:
    * `CounterConfig.Usable`
    * `SimulationConfig.Usable`
    * `Config.Usable`

  Key theorems include:
    * `Config.validate_eq_ok_iff`
    * `SimulationConfig.mem_route_iff`
    * `Config.Usable.located`
    * `Config.validation_agrees_with_machine`
-/

namespace CoreTally

------------------------------------------------------------
-- Events
------------------------------------------------------------

/- Events have names without repetition, none of them blank. -/
structure CounterConfig.Usable (counters : CounterConfig) : Prop where
  some : counters.events ≠ []
  distinct : counters.events.Nodup
  worded : ∀ event ∈ counters.events, Text.trim event.toList ≠ []

/- Names are without problem if they are new, and not blank. -/
theorem eventProblem?_eq_none_iff
    (before events : List String) :
    eventProblem? before events = none ↔
      events.Nodup ∧
        (∀ event ∈ events, event ∉ before) ∧
        ∀ event ∈ events, Text.trim event.toList ≠ [] := by
  induction events generalizing before with
  | nil => simp [eventProblem?]
  | cons event rest ih =>
      rw [eventProblem?]
      by_cases hBlank : Text.trim event.toList = []
      · simp [hBlank]
      · by_cases hKnown : event ∈ before
        · simp [hBlank, hKnown]
        · rw [if_neg (by simpa using hBlank),
            if_neg (by simpa using hKnown), ih, List.nodup_cons,
            List.forall_mem_cons, List.forall_mem_cons]
          constructor
          · rintro ⟨hDistinct, hNew, hWorded⟩
            refine ⟨⟨?_, hDistinct⟩, ⟨hKnown, ?_⟩, hBlank, hWorded⟩
            · intro hAgain
              exact hNew event hAgain List.mem_cons_self
            · intro other hOther
              exact mt (List.mem_cons_of_mem _) (hNew other hOther)
          · rintro ⟨⟨hOnce, hDistinct⟩, ⟨_, hNew⟩, _, hWorded⟩
            refine ⟨hDistinct, ?_, hWorded⟩
            intro other hOther
            rw [List.mem_cons, not_or]
            exact ⟨ne_of_mem_of_not_mem hOther hOnce,
              hNew other hOther⟩

theorem CounterConfig.problem?_eq_none_iff
    (counters : CounterConfig) :
    counters.problem? = none ↔ counters.Usable := by
  have hEvents := eventProblem?_eq_none_iff [] counters.events
  rw [CounterConfig.problem?]
  constructor
  · intro hNone
    split at hNone
    · contradiction
    · rename_i hSome
      rcases hEvents.mp hNone with ⟨hDistinct, _, hWorded⟩
      exact ⟨by simpa using hSome, hDistinct, hWorded⟩
  · intro hUsable
    rw [if_neg (by simpa using hUsable.some)]
    exact hEvents.mpr
      ⟨hUsable.distinct, by simp, hUsable.worded⟩

------------------------------------------------------------
-- Workloads
------------------------------------------------------------

namespace SimulationConfig

/- There is work to do on units that the machine has. -/
structure Usable (simulation : SimulationConfig) : Prop where
  some : simulation.units ≠ []
  work : simulation.workPerStep ≠ 0
  threads : simulation.totalThreads ≠ 0
  within :
    ∀ unit ∈ simulation.units,
      unit.toNat < simulation.totalThreads

theorem problem?_eq_none_iff
    (simulation : SimulationConfig) :
    simulation.problem? = none ↔ simulation.Usable := by
  have hWithin :
      simulation.unitOutside? = none ↔
        ∀ unit ∈ simulation.units,
          unit.toNat < simulation.totalThreads := by
    rw [unitOutside?, List.find?_eq_none]
    simp
  rw [problem?]
  constructor
  · intro hNone
    split at hNone
    · contradiction
    · split at hNone
      · contradiction
      · split at hNone
        · contradiction
        · rename_i hSome hWork hThreads
          exact ⟨by simpa using hSome, hWork, hThreads,
            hWithin.mp (Option.map_eq_none_iff.mp hNone)⟩
  · intro hUsable
    rw [if_neg (by simpa using hUsable.some),
      if_neg hUsable.work, if_neg hUsable.threads,
      hWithin.mpr hUsable.within]
    rfl

/- The route visits the configured units. -/
theorem mem_route_iff
    (simulation : SimulationConfig)
    (unit : UnitId) :
    unit ∈ simulation.route ↔ unit ∈ simulation.units := by
  rw [route]
  split
  · rename_i first second rest hUnits
    rw [hUnits, List.mem_append, List.mem_singleton]
    constructor
    · rintro (hUnit | rfl)
      · exact hUnit
      · exact List.mem_cons_self
    · exact .inl
  · exact Iff.rfl

end SimulationConfig

------------------------------------------------------------
-- Configurations
------------------------------------------------------------

namespace Config

/- The events and the workload can be used. -/
structure Usable (config : Config) : Prop where
  counters : config.counters.Usable
  simulation : config.simulation.Usable

/- Exactly the usable configurations pass, as they are. -/
theorem validate_eq_ok_iff
    (config found : Config) :
    config.validate = .ok found ↔
      found = config ∧ config.Usable := by
  have hProblem :
      config.problem? = none ↔ config.Usable := by
    rw [problem?, Option.or_eq_none_iff,
      CounterConfig.problem?_eq_none_iff,
      SimulationConfig.problem?_eq_none_iff]
    exact ⟨fun h => ⟨h.1, h.2⟩, fun h => ⟨h.1, h.2⟩⟩
  rw [← hProblem, validate]
  cases config.problem? with
  | none => simp [eq_comm]
  | some problem => simp

/- The machine of the workload has the threads that are counted. -/
theorem located_of_lt
    (config : Config)
    {unit : UnitId}
    (hWithin : unit.toNat < config.simulation.totalThreads) :
    (config.site.topology.find? config.site.root unit
      .thread).isSome = true :=
  Topology.isSome_find?_uniform hWithin

/- Every unit along the route is a thread of the machine. -/
theorem Usable.located
    {config : Config}
    (hUsable : config.Usable)
    {unit : UnitId}
    (hUnit : unit ∈ config.simulation.route) :
    (config.site.topology.find? config.site.root unit
      .thread).isSome = true := by
  rw [SimulationConfig.mem_route_iff] at hUnit
  exact config.located_of_lt (hUsable.simulation.within unit hUnit)

/- The route leads somewhere. -/
theorem Usable.route_ne_nil
    {config : Config}
    (hUsable : config.Usable) :
    config.simulation.route ≠ [] := by
  rcases List.exists_mem_of_ne_nil _ hUsable.simulation.some with
    ⟨unit, hUnit⟩
  exact List.ne_nil_of_mem
    ((config.simulation.mem_route_iff unit).mpr hUnit)

/- So is the unit that event sets count on at first. -/
theorem Usable.located_zero
    {config : Config}
    (hUsable : config.Usable) :
    (config.site.topology.find? config.site.root 0
      .thread).isSome = true :=
  config.located_of_lt
    (Nat.pos_of_ne_zero hUsable.simulation.threads)

------------------------------------------------------------
-- The Machine of a Configuration
------------------------------------------------------------

/- A machine has threads if it has any in every dimension. -/
theorem totalThreads_ne_zero_iff
    (simulation : SimulationConfig) :
    simulation.totalThreads ≠ 0 ↔
      simulation.sockets ≠ 0 ∧
        simulation.coresPerSocket ≠ 0 ∧
          simulation.threadsPerCore ≠ 0 := by
  have hZero (n : UInt32) : n.toNat = 0 ↔ n = 0 :=
    UInt32.toNat_inj (b := 0)
  rw [SimulationConfig.totalThreads, Ne, Nat.mul_eq_zero,
    Nat.mul_eq_zero, hZero, hZero, hZero, not_or, not_or,
    and_assoc]

/- The units of a route are those that the machine is built with. -/
theorem located_route_iff
    (config : Config)
    (hFew : config.simulation.totalThreads < 2 ^ 32) :
    (∀ unit ∈ config.simulation.route,
        (config.machineTopology.find? 0 unit .thread).isSome =
          true) ↔
      ∀ unit ∈ config.simulation.units,
        unit.toNat < config.simulation.totalThreads := by
  have hFound (unit : UnitId) :
      (config.machineTopology.find? 0 unit .thread).isSome =
          true ↔
        unit.toNat < config.simulation.totalThreads :=
    Topology.isSome_find?_uniform_iff (Nat.le_of_lt hFew) unit
  simp only [hFound, SimulationConfig.mem_route_iff]

/-
  A machine of alike sockets has the threads that are calculated
  for it, each in its core and its chip. So validation, which
  calculates with the dimensions only, accepts a configuration
  exactly if there are events with different names, none of them
  blank, and work to do on a machine that is not empty, on units
  all of which are found along the route.
-/
theorem validation_agrees_with_machine :
    (∀ sockets cores threads : UInt32,
      sockets.toNat * cores.toNat * threads.toNat < 2 ^ 32 →
      sockets.toNat * cores.toNat < 2 ^ 32 →
      (Topology.uniform sockets cores threads).Arranged
        sockets.toNat cores.toNat threads.toNat) ∧
      ∀ config : Config,
        config.simulation.totalThreads < 2 ^ 32 →
        ((∃ found, config.validate = .ok found) ↔
          config.counters.events ≠ [] ∧
            config.counters.events.Nodup ∧
            (∀ event ∈ config.counters.events,
              Text.trim event.toList ≠ []) ∧
            config.simulation.units ≠ [] ∧
            0 < config.simulation.workPerStep ∧
            (config.simulation.sockets ≠ 0 ∧
              config.simulation.coresPerSocket ≠ 0 ∧
              config.simulation.threadsPerCore ≠ 0) ∧
            ∀ unit ∈ config.simulation.route,
              (config.machineTopology.find? 0 unit
                .thread).isSome = true) := by
  refine ⟨Topology.arranged_uniform, ?_⟩
  intro config hFew
  rw [← totalThreads_ne_zero_iff, located_route_iff config hFew]
  simp only [validate_eq_ok_iff, exists_eq_left]
  constructor
  · rintro ⟨⟨hEvents, hDistinct, hWorded⟩,
      ⟨hUnits, hWork, hThreads, hWithin⟩⟩
    exact ⟨hEvents, hDistinct, hWorded, hUnits,
      UInt64.pos_iff_ne_zero.mpr hWork, hThreads, hWithin⟩
  · rintro ⟨hEvents, hDistinct, hWorded, hUnits, hWork, hThreads,
      hWithin⟩
    exact ⟨⟨hEvents, hDistinct, hWorded⟩,
      ⟨hUnits, UInt64.pos_iff_ne_zero.mp hWork, hThreads, hWithin⟩⟩

/-
  The last thread of two chips with three cores of two threads
  each, and a workload that visits it. No workload visits the one
  after it.
-/
theorem validation_agrees_with_machine_at_last_thread :
    let machine := Topology.uniform 2 3 2
    let config : Config :=
      { simulation :=
          { units := [11, 0], sockets := 2, coresPerSocket := 3,
            threadsPerCore := 2 } }
    let beyond : Config :=
      { config with
        simulation := { config.simulation with units := [12] } }
    machine.size = 21 ∧
      (∃ node core chip,
        machine.find? 0 11 .thread = some node ∧
          machine.parent? node = some core ∧
          machine.Sole .core 5 core ∧
          machine.parent? core = some chip ∧
          machine.Sole .chip 1 chip ∧
          machine.parent? chip = some 0) ∧
      machine.find? 0 12 .thread = none ∧
      (∃ found, config.validate = .ok found) ∧
      ¬ ∃ found, beyond.validate = .ok found := by
  intro machine config beyond
  rcases validation_agrees_with_machine with ⟨hMachine, hValid⟩
  have hArranged : machine.Arranged 2 3 2 :=
    hMachine 2 3 2 (by decide) (by decide)
  have hLast : (machine.find? 0 11 .thread).isSome = true :=
    (hArranged.found 11).mpr (by decide)
  have hFirst : (machine.find? 0 0 .thread).isSome = true :=
    (hArranged.found 0).mpr (by decide)
  have hBeyond : ¬ (machine.find? 0 12 .thread).isSome = true :=
    mt (hArranged.found 12).mp (by decide)
  refine ⟨hArranged.size, ?_, by simpa using hBeyond, ?_, ?_⟩
  · rcases Option.isSome_iff_exists.mp hLast with ⟨node, hNode⟩
    rcases (hArranged.chain 11 node hNode).2 with
      ⟨core, chip, hCore, hSoleCore, hChip, hSoleChip, hRoot⟩
    exact ⟨node, core, chip, hNode, hCore, hSoleCore, hChip,
      hSoleChip, hRoot⟩
  · refine (hValid config (by decide)).mpr
      ⟨by decide, by decide, by decide, by decide, by decide,
        by decide, ?_⟩
    intro unit hUnit
    change unit ∈ [11, 0, 11] at hUnit
    simp only [List.mem_cons, List.not_mem_nil, or_false] at hUnit
    rcases hUnit with rfl | rfl | rfl
    · exact hLast
    · exact hFirst
    · exact hLast
  · intro hAccepted
    have hRoute :=
      ((hValid beyond (by decide)).mp hAccepted).2.2.2.2.2.2
    exact hBeyond (hRoute 12 (by decide))

end Config

end CoreTally
