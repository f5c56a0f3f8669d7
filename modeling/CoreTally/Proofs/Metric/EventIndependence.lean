import CoreTally.Proofs.Metric.PendingReset
import CoreTally.Proofs.Metric.UnitCounts

/-
  Events are accounted independently. What a ledger holds of an
  event is what it would hold if no other event were ever
  listed, and readings of different events may change places.
  Only the numbers of series that participants count belong to
  all events together.

  Key definitions include:
    * `Batch.only`
    * `Ledger.replayOnly`
    * `Ledger.presence`
    * `Ledger.AgreesOn`
    * `Ledger.Operation.Reorders`

  Key theorems include:
    * `Ledger.agreesOn_replayOnly`
    * `Ledger.presence_eq`
    * `Ledger.post_comm`
    * `Ledger.apply_reorders`
    * `Ledger.events_are_independent`
-/

namespace CoreTally

open EventSeries

------------------------------------------------------------
-- Histories of One Event
------------------------------------------------------------

/- The readings of an event, in their order. -/
def Batch.only
    (event : String)
    (batch : Batch) : Batch :=
  { batch with
    readings := batch.readings.filter (·.event == event) }

/- All values of an event are left. -/
@[simp] theorem Batch.valuesOf_only
    (event : String)
    (batch : Batch) :
    (batch.only event).valuesOf event = batch.valuesOf event := by
  simp [valuesOf, only, List.filter_filter]

namespace Ledger

/- An operation that lists no event but one. -/
def Operation.only (event : String) : Operation → Operation
| .store mode batch => .store mode (batch.only event)
| .reset => .reset

/- Carry out a history in which no event but one is listed. -/
def replayOnly
    (event : String)
    (history : List Operation) : Ledger :=
  empty.replay (history.map (Operation.only event))

/-
  The events in whose own histories a unit ends up with a
  series.
-/
def presence
    (history : List Operation)
    (unit : UnitId) : Set String :=
  { event |
    ((replayOnly event history).store.unitSeries? event
      unit).isSome = true }

------------------------------------------------------------
-- Agreement on an Event
------------------------------------------------------------

/-
  Two ledgers hold the same series of an event, and both will
  go on with it from the same instant in the same way.
-/
structure AgreesOn
    (event : String)
    (one other : Ledger) : Prop where
  series : one.store.seriesOf event = other.store.seriesOf event
  latest : one.latest = other.latest
  pendingReset : one.pendingReset = other.pendingReset

/-
  An operation does to an event what it does if it lists no
  other one.
-/
theorem AgreesOn.apply_only
    {event : String}
    {one other : Ledger}
    (hAgrees : one.AgreesOn event other)
    (operation : Operation) :
    (one.apply (operation.only event)).AgreesOn event
      (other.apply operation) := by
  cases operation with
  | reset => exact ⟨hAgrees.series, hAgrees.latest, rfl⟩
  | store mode batch =>
      have hPosting :
          (batch.only event).posting one = batch.posting other := by
        simp [Batch.posting, Batch.only, hAgrees.latest]
      constructor
      · rw [Operation.only, seriesOf_apply, seriesOf_apply,
          seriesOf_opened, seriesOf_opened, Batch.valuesOf_only,
          hPosting, hAgrees.series, hAgrees.pendingReset]
      · rw [Operation.only, latest_apply_store,
          latest_apply_store]
        rfl
      · cases mode <;> simp [Operation.only]

/- What a ledger holds of an event comes of its own readings. -/
theorem agreesOn_replayOnly
    (event : String)
    (history : List Operation) :
    (replayOnly event history).AgreesOn event
      (empty.replay history) := by
  induction history using List.reverseRecOn with
  | nil => exact ⟨rfl, rfl, rfl⟩
  | append_singleton history operation ih =>
      rw [replayOnly, List.map_append, replay_append,
        replay_append]
      exact ih.apply_only operation

/- Ledgers that agree on an event store it both or not at all. -/
theorem AgreesOn.series?_eq
    {event : String}
    {one other : Ledger}
    (hAgrees : one.AgreesOn event other)
    (hOne : one.store.Sound)
    (hOther : other.store.Sound) :
    one.store.series? event = other.store.series? event :=
  hOne.series?_eq hOther hAgrees.series

/- A unit is present with the events of which it has a series. -/
theorem presence_eq
    (history : List Operation)
    (unit : UnitId) :
    presence history unit =
      (empty.replay history).store.eventsOn unit := by
  ext event
  have hAgrees := agreesOn_replayOnly event history
  simp only [presence, Store.eventsOn, Set.mem_ofPred_eq,
    Store.unitSeries?, hAgrees.series]

/- A history of few events has few events on any unit. -/
theorem encard_presence_lt
    {history : List Operation}
    (hFew : (eventsOf history).toFinset.card < 2 ^ 32)
    (unit : UnitId)
    (done : List Operation)
    (hDone : done <+: history) :
    (presence done unit).encard < 2 ^ 32 := by
  rcases hDone with ⟨rest, rfl⟩
  have hEvents := card_eventsOf_append_le done rest
  have hSize := size_replay_le done
  have hCount :=
    (empty.replay done).store.seriesCount_le_size unit
  rw [presence_eq, Store.encard_eventsOn]
  have hLess :
      (empty.replay done).store.seriesCount unit < 2 ^ 32 := by
    omega
  exact_mod_cast hLess

end Ledger

------------------------------------------------------------
-- Reordering
------------------------------------------------------------

namespace Store

/- Series of different events are replaced in any order. -/
theorem put_comm
    (store : Store)
    {event other : String}
    (hEvents : event ≠ other)
    (series others : List Series) :
    (store.put event series).put other others =
      (store.put other others).put event series := by
  unfold put
  congr 1
  apply OrderedMap.ext_find?
  intro key
  simp only [OrderedMap.find?_insert]
  by_cases hOther : key = other
  · have hEvent : key ≠ event := fun h => hEvents (h ▸ hOther)
    rw [if_pos hOther, if_neg hEvent, if_pos hOther]
  · rw [if_neg hOther, if_neg hOther]

end Store

namespace Ledger

/-
  Readings of different events are posted in any order. Both
  may add a series, which the unit counts twice either way.
-/
theorem post_comm
    (unit : UnitId)
    (change : Count → List Series → List Series)
    (ledger : Ledger)
    {one other : Reading}
    (hEvents : one.event ≠ other.event) :
    post unit change (post unit change ledger one) other =
      post unit change (post unit change ledger other) one := by
  simp only [post, Store.seriesOf_put, if_neg hEvents,
    if_neg hEvents.symm, Store.put_comm _ hEvents]
  congr 1
  split <;> split <;> rfl

/- A reading may come before all readings of other events. -/
theorem foldl_post_move
    (unit : UnitId)
    (change : Count → List Series → List Series)
    {front : List Reading}
    {reading : Reading}
    (hFront : ∀ other ∈ front, other.event ≠ reading.event)
    (ledger : Ledger) :
    post unit change (front.foldl (post unit change) ledger)
        reading =
      front.foldl (post unit change)
        (post unit change ledger reading) := by
  induction front generalizing ledger with
  | nil => rfl
  | cons other front ih =>
      have hRest := fun later hLater =>
        hFront later (List.mem_cons_of_mem other hLater)
      rw [List.foldl_cons, List.foldl_cons, ih hRest,
        post_comm unit change ledger
          (hFront other List.mem_cons_self)]

/-
  Readings are posted with the same result in any order that
  keeps those of each event in theirs.
-/
theorem foldl_post_reorder
    (unit : UnitId)
    (change : Count → List Series → List Series)
    {readings others : List Reading}
    (hSame :
      ∀ event,
        others.filter (·.event == event) =
          readings.filter (·.event == event))
    (ledger : Ledger) :
    others.foldl (post unit change) ledger =
      readings.foldl (post unit change) ledger := by
  induction readings generalizing others ledger with
  | nil =>
      have hNil : others = [] := by
        apply List.eq_nil_iff_forall_not_mem.mpr
        intro reading hReading
        have hNone := List.filter_eq_nil_iff.mp
          (hSame reading.event) reading hReading
        simp at hNone
      rw [hNil]
  | cons reading readings ih =>
      -- The first reading is found behind readings of other
      -- events, in front of which it may be posted.
      have hFirst := hSame reading.event
      rw [List.filter_cons_of_pos (by simp),
        List.filter_eq_cons_iff] at hFirst
      rcases hFirst with ⟨front, back, rfl, hFront, _, hBack⟩
      have hOther : ∀ other ∈ front,
          other.event ≠ reading.event := by
        intro other hMem
        simpa using hFront other hMem
      have hRest :
          ∀ event,
            (front ++ back).filter (·.event == event) =
              readings.filter (·.event == event) := by
        intro event
        by_cases hEvent : reading.event = event
        · subst hEvent
          rw [List.filter_append,
            List.filter_eq_nil_iff.mpr hFront, List.nil_append,
            hBack]
        · have hAll := hSame event
          rwa [List.filter_append,
            List.filter_cons_of_neg (by simpa using hEvent),
            List.filter_cons_of_neg (by simpa using hEvent),
            ← List.filter_append] at hAll
      rw [List.foldl_append, List.foldl_cons, List.foldl_cons,
        foldl_post_move unit change hOther, ← List.foldl_append,
        ih hRest]

/-
  Two operations differ at most in how readings of different
  events follow one another.
-/
inductive Operation.Reorders : Operation → Operation → Prop
| store
    (mode : Posting.Mode)
    (batch : Batch)
    (readings : List Reading)
    (hSame :
      ∀ event,
        readings.filter (·.event == event) =
          batch.readings.filter (·.event == event)) :
    Reorders (.store mode batch)
      (.store mode { batch with readings := readings })
| reset :
    Reorders .reset .reset

/- Readings of distinct events may be listed in any order. -/
theorem Operation.Reorders.of_perm
    (mode : Posting.Mode)
    {batch : Batch}
    (hDistinct : batch.events.Nodup)
    {readings : List Reading}
    (hPerm : readings.Perm batch.readings) :
    Reorders (.store mode batch)
      (.store mode { batch with readings := readings }) := by
  apply Reorders.store
  intro event
  have hOnce :
      (batch.readings.filter (·.event == event)).length ≤ 1 := by
    have hValues := Batch.valuesOf_of_distinct hDistinct event
    have hLength := congrArg List.length hValues
    rw [Batch.valuesOf, List.length_map] at hLength
    rw [hLength]
    exact Option.length_toList_le
  have hFilter := hPerm.filter (·.event == event)
  cases hListed : batch.readings.filter (·.event == event) with
  | nil =>
      rw [hListed] at hFilter
      exact hFilter.eq_nil
  | cons reading rest =>
      rw [hListed, List.length_cons] at hOnce
      have hRest : rest = [] :=
        List.eq_nil_of_length_eq_zero (by omega)
      rw [hListed, hRest] at hFilter
      rw [hRest]
      exact hFilter.eq_singleton

/- Operations that differ in this only have the same effect. -/
theorem apply_reorders
    {operation other : Operation}
    (hReorders : operation.Reorders other)
    (ledger : Ledger) :
    ledger.apply other = ledger.apply operation := by
  cases hReorders with
  | reset => rfl
  | store mode batch readings hSame =>
      rw [apply_store, apply_store]
      exact congrArg
        (fun posted : Ledger =>
          { posted with latest := batch.instant })
        (foldl_post_reorder _ _ hSame _)

theorem replay_reorders
    {history other : List Operation}
    (hReorders : List.Forall₂ Operation.Reorders history other)
    (ledger : Ledger) :
    ledger.replay other = ledger.replay history := by
  induction hReorders generalizing ledger with
  | nil => rfl
  | cons hFirst _ ih =>
      rw [replay_cons, replay_cons, apply_reorders hFirst, ih]

------------------------------------------------------------
-- Independence
------------------------------------------------------------

/-
  A ledger holds of every event what the event's own readings
  make of it. The participants count the events in whose own
  histories their units have a series; as a count has 32 bits,
  this takes numbers of events that fit it. No order among
  readings of different events makes a difference.
-/
theorem events_are_independent
    (history : List Operation) :
    let full := empty.replay history
    (∀ event,
      let alone := replayOnly event history
      alone.store.series? event = full.store.series? event ∧
        alone.latest = full.latest ∧
        alone.pendingReset = full.pendingReset) ∧
      (∀ unit,
        (∀ done, done <+: history →
          (presence done unit).encard < 2 ^ 32) →
        (full.refsOf unit : ℕ∞) =
          (presence history unit).encard) ∧
      ∀ other, List.Forall₂ Operation.Reorders history other →
        empty.replay other = full := by
  intro full
  refine ⟨?_, ?_, ?_⟩
  · intro event alone
    have hAgrees := agreesOn_replayOnly event history
    exact
      ⟨hAgrees.series?_eq (sound_replay _) (sound_replay history),
        hAgrees.latest, hAgrees.pendingReset⟩
  · intro unit hFits
    have hCounts : full.Counts unit := by
      apply counts_replay
      intro done hDone
      have hDoneFits := hFits done hDone
      rw [presence_eq, Store.encard_eventsOn] at hDoneFits
      exact_mod_cast hDoneFits
    rw [presence_eq, Store.encard_eventsOn, hCounts]
  · intro other hReorders
    exact replay_reorders hReorders empty

/-
  Two units report three events, one of them twice at once. The
  second one carries out a reset, which evicts the first one
  and leaves no trace of the event that is not listed again.
-/
theorem events_are_independent_evicting :
    let history : List Operation :=
      [.store .accumulate
          ⟨0, 3, 5, [⟨"TOT_INS", 200⟩, ⟨"TOT_CYC", 300⟩], false⟩,
        .store .read
          ⟨1, 5, 9,
            [⟨"TOT_INS", 40⟩, ⟨"BR_MSP", 1⟩, ⟨"TOT_INS", 7⟩],
            true⟩]
    let other : List Operation :=
      [.store .accumulate
          ⟨0, 3, 5, [⟨"TOT_CYC", 300⟩, ⟨"TOT_INS", 200⟩], false⟩,
        .store .read
          ⟨1, 5, 9,
            [⟨"BR_MSP", 1⟩, ⟨"TOT_INS", 40⟩, ⟨"TOT_INS", 7⟩],
            true⟩]
    let full := empty.replay history
    let alone := replayOnly "TOT_INS" history
    (∀ done, done <+: history →
        (presence done 1).encard < 2 ^ 32) ∧
      List.Forall₂ Operation.Reorders history other ∧
      full.store.names = ["BR_MSP", "TOT_INS"] ∧
      full.refsOf 0 = 0 ∧
      full.refsOf 1 = 2 ∧
      (presence history 1).encard = 2 ∧
      alone.store.series? "TOT_INS" =
        full.store.series? "TOT_INS" ∧
      empty.replay other = full := by
  intro history other full alone
  have hIndependent := events_are_independent history
  have hFew : (eventsOf history).toFinset.card < 2 ^ 32 := by
    decide
  have hRefs : full.refsOf 1 = 2 := by decide
  have hFits := encard_presence_lt hFew 1
  have hPresence := hIndependent.2.1 1 hFits
  rw [hRefs] at hPresence
  have hAccumulate :
      Operation.Reorders
        (.store .accumulate
          ⟨0, 3, 5, [⟨"TOT_INS", 200⟩, ⟨"TOT_CYC", 300⟩], false⟩)
        (.store .accumulate
          ⟨0, 3, 5, [⟨"TOT_CYC", 300⟩, ⟨"TOT_INS", 200⟩],
            false⟩) :=
    .of_perm .accumulate (by decide) (List.Perm.swap _ _ [])
  have hRead :
      Operation.Reorders
        (.store .read
          ⟨1, 5, 9,
            [⟨"TOT_INS", 40⟩, ⟨"BR_MSP", 1⟩, ⟨"TOT_INS", 7⟩],
            true⟩)
        (.store .read
          ⟨1, 5, 9,
            [⟨"BR_MSP", 1⟩, ⟨"TOT_INS", 40⟩, ⟨"TOT_INS", 7⟩],
            true⟩) := by
    apply Operation.Reorders.store .read ⟨1, 5, 9, _, true⟩
    intro event
    by_cases hEvent : "TOT_INS" = event
    · subst hEvent
      decide
    · simp [List.filter_cons, hEvent]
  have hReorders : List.Forall₂ Operation.Reorders history other :=
    .cons hAccumulate (.cons hRead .nil)
  exact
    ⟨hFits, hReorders, by decide, by decide, hRefs,
      by exact_mod_cast hPresence.symm,
      (hIndependent.1 "TOT_INS").1,
      hIndependent.2.2 other hReorders⟩

end Ledger

end CoreTally
