import CoreTally.Proofs.Session.Visits
import Mathlib.Data.List.Nodup

/-
  How an event set comes to be: it is created, named events of
  the catalog are added to it one by one, and it is started. If
  all the names are known, nothing fails on the way, and the
  event set counts exactly these events, from zero.

  Key definitions include:
    * `SimulatedSet.idle`
    * `Simulated.codeOf`
    * `Simulated.Consistent`

  Key theorems include:
    * `Simulated.consistent_of_nodup`
    * `Simulated.catalogued_codes`
    * `Simulated.addNamedEvents_ok`
    * `Config.prepare_ok`
    * `Simulated.start_ok`
-/

namespace CoreTally

------------------------------------------------------------
-- Idle Event Sets
------------------------------------------------------------

namespace SimulatedSet

/- A new event set with some events. -/
def idle (codes : List EventCode) : SimulatedSet where
  counters := codes.map fun code => ⟨code, 0⟩
  running := false
  binding := .cpu 0

@[simp] theorem codes_idle
    (codes : List EventCode) :
    (idle codes).codes = codes := by
  simp [SimulatedSet.codes, idle, Function.comp_def]

theorem push_idle
    (codes : List EventCode)
    (code : EventCode) :
    (idle codes).push code = idle (codes ++ [code]) := by
  simp [push, idle]

end SimulatedSet

namespace Simulated

------------------------------------------------------------
-- Named Events
------------------------------------------------------------

/- The code of a known name. -/
def codeOf
    (s : Simulated)
    (name : String) : EventCode :=
  ((s.named? name).map CatalogEvent.code).getD 0

/- Known events are found by their codes. -/
def Consistent (s : Simulated) : Prop :=
  ∀ event ∈ s.catalog, s.event? event.code = some event

variable {s : Simulated}
variable {name : String}

/- Where codes are distinct, events are found by their codes. -/
theorem consistent_of_nodup
    (hDistinct : (s.catalog.map CatalogEvent.code).Nodup) :
    s.Consistent := by
  intro event hEvent
  have hSome : (s.event? event.code).isSome = true :=
    List.find?_isSome.mpr ⟨event, hEvent, beq_self_eq_true _⟩
  rcases Option.isSome_iff_exists.mp hSome with ⟨found, hFound⟩
  have hCode : found.code = event.code := by
    simpa using List.find?_some hFound
  rw [hFound, List.inj_on_of_nodup_map hDistinct
    (List.mem_of_find?_eq_some hFound) hEvent hCode]

theorem consistent_withDefaultEvents :
    withDefaultEvents.Consistent :=
  consistent_of_nodup (by decide)

/- The code of a known name leads to an event of that name. -/
theorem Consistent.event?_codeOf
    (hConsistent : s.Consistent)
    (hKnown : (s.named? name).isSome = true) :
    ∃ event,
      s.event? (s.codeOf name) = some event ∧
        event.name = name := by
  rcases Option.isSome_iff_exists.mp hKnown with ⟨event, hEvent⟩
  refine ⟨event, ?_, ?_⟩
  · rw [codeOf, hEvent]
    exact hConsistent event (List.mem_of_find?_eq_some hEvent)
  · simpa using List.find?_some hEvent

theorem Consistent.nameOf_codeOf
    (hConsistent : s.Consistent)
    (hKnown : (s.named? name).isSome = true) :
    s.nameOf (s.codeOf name) = name := by
  rcases hConsistent.event?_codeOf hKnown with
    ⟨event, hEvent, hName⟩
  rw [nameOf, hEvent]
  exact hName

theorem Consistent.map_nameOf_codeOf
    (hConsistent : s.Consistent)
    {names : List String}
    (hKnown : ∀ name ∈ names, (s.named? name).isSome = true) :
    (names.map s.codeOf).map s.nameOf = names := by
  rw [List.map_map]
  refine (List.map_congr_left ?_).trans (List.map_id names)
  intro name hName
  exact hConsistent.nameOf_codeOf (hKnown name hName)

/- Known names without repetition are events of a catalog. -/
theorem catalogued_codes
    (hConsistent : s.Consistent)
    {names : List String}
    (hSome : names ≠ [])
    (hDistinct : names.Nodup)
    (hKnown : ∀ name ∈ names, (s.named? name).isSome = true) :
    s.Catalogued (names.map s.codeOf) := by
  refine ⟨by simpa using hSome, ?_, ?_⟩
  · intro code hCode
    rcases List.mem_map.mp hCode with ⟨name, hName, rfl⟩
    rcases hConsistent.event?_codeOf (hKnown name hName) with
      ⟨event, hEvent, _⟩
    rw [hEvent]
    rfl
  · rwa [hConsistent.map_nameOf_codeOf hKnown]

------------------------------------------------------------
-- Adding Events
------------------------------------------------------------

variable {handle : EventSet}
variable {set : SimulatedSet}

/- A known event is added to a stopped event set. -/
theorem addNamedEvent_ok
    (hKnown : (s.named? name).isSome = true)
    (hFind : s.sets.find? handle = some set)
    (hStopped : set.running = false) :
    addNamedEvent handle name s =
      .ok (s.codeOf name)
        (s.putSet handle (set.push (s.codeOf name))) := by
  rcases Option.isSome_iff_exists.mp hKnown with ⟨event, hEvent⟩
  have hCode : s.codeOf name = event.code := by
    rw [codeOf, hEvent]
    rfl
  have hAsk : eventCode name s = .ok event.code s := by
    simp only [eventCode, hEvent]
  have hListed : (s.event? event.code).isSome = true := by
    rw [event?, List.find?_isSome]
    exact ⟨event, List.mem_of_find?_eq_some hEvent, by simp⟩
  have hAdd :
      addEvent handle event.code s =
        .ok () (s.putSet handle (set.push event.code)) := by
    rcases Option.isSome_iff_exists.mp hListed with ⟨found, hFound⟩
    simp [addEvent, hFound, addRawEvent, onSet, hFind, hStopped]
  rw [hCode, addNamedEvent, Action.bind_ok hAsk,
    Action.bind_ok hAdd]
  rfl

/- Known events are added one after another. -/
theorem addNamedEvents_ok
    {names : List String}
    (hKnown : ∀ name ∈ names, (s.named? name).isSome = true)
    {codes : List EventCode}
    (hFind : s.sets.find? handle = some (.idle codes)) :
    ∃ next : Simulated,
      (names.forM fun name =>
          discard (addNamedEvent handle name)) s =
          .ok () next ∧
        next.catalog = s.catalog ∧
        next.sets.find? handle =
          some (.idle (codes ++ names.map s.codeOf)) := by
  induction names generalizing s codes with
  | nil => exact ⟨s, rfl, rfl, by simpa using hFind⟩
  | cons name names ih =>
      rcases List.forall_mem_cons.mp hKnown with ⟨hName, hNames⟩
      have hAdd := addNamedEvent_ok hName hFind rfl
      rw [SimulatedSet.push_idle] at hAdd
      -- The catalog is still the same one.
      let added :=
        s.putSet handle (.idle (codes ++ [s.codeOf name]))
      have hStill :
          ∀ other ∈ names, (added.named? other).isSome = true :=
        hNames
      rcases ih hStill (find?_putSet s handle _) with
        ⟨next, hRest, hCatalog, hFound⟩
      refine ⟨next, ?_, hCatalog, ?_⟩
      · exact (Action.bind_ok (Action.discard_ok hAdd)).trans hRest
      · rw [hFound, List.append_assoc]
        rfl

/- An idle event set with events starts to count from zero. -/
theorem start_ok
    {codes : List EventCode}
    (hFind : s.sets.find? handle = some (.idle codes))
    (hSome : codes ≠ []) :
    start handle s =
      .ok ()
        (s.putSet handle
          (SimulatedSet.counting codes (fun _ => 0) (.cpu 0))) := by
  have hStopped : (SimulatedSet.idle codes).running = false := rfl
  have hCounters : (SimulatedSet.idle codes).counters ≠ [] := by
    simpa [SimulatedSet.idle] using hSome
  simp only [start, onSet, hFind, hStopped, Bool.false_eq_true,
    if_false, List.isEmpty_iff, hCounters,
    SimulatedSet.zeroed_running, SimulatedSet.codes_idle]
  rfl

end Simulated

/-
  Preparing a configuration whose events are all known leaves a
  new event set with them.
-/
theorem Config.prepare_ok
    {config : Config}
    {s : Simulated}
    (hKnown :
      ∀ event ∈ config.counters.events,
        (s.named? event).isSome = true) :
    ∃ next : Simulated,
      config.prepare s = .ok s.nextSet next ∧
        next.catalog = s.catalog ∧
        next.sets.find? s.nextSet =
          some (.idle (config.counters.events.map s.codeOf)) := by
  let created := s.createEventSet.1
  have hCreate :
      (modifyGet fun s => (s.createEventSet.2, s.createEventSet.1) :
          Action BackendError Simulated EventSet) s =
        .ok s.nextSet created := rfl
  have hFind : created.sets.find? s.nextSet = some (.idle []) :=
    Simulated.find?_putSet _ _ _
  have hStill :
      ∀ event ∈ config.counters.events,
        (created.named? event).isSome = true :=
    hKnown
  rcases Simulated.addNamedEvents_ok hStill hFind with
    ⟨next, hAdd, hCatalog, hFound⟩
  refine ⟨next, ?_, hCatalog, hFound⟩
  rw [Config.prepare, Action.bind_ok hCreate, Action.bind_ok hAdd]
  rfl

end CoreTally
