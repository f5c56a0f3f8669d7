import CoreTally.Proofs.Metric.History

/-
  What holds of every series of an event in any ledger whose
  instants advance. If the event is listed once by everything
  that is stored, its temporary entries are always stamped
  with the latest instant, whatever the other events do.

  Key definitions include:
    * `Series.Orderly`
    * `Series.Timely`
    * `EventSeries.Every`

  Key theorems include:
    * `Ledger.orderly_replay`
    * `Ledger.timely_replay`
-/

namespace CoreTally

------------------------------------------------------------
-- Invariants of One Series
------------------------------------------------------------

namespace Series

/- Only the last entry may be temporary, and none is late. -/
structure Orderly
    (bound : Instant)
    (series : Series) : Prop where
  retentive : series.Retentive
  within : series.Within bound

/-
  Instants ascend, and a temporary entry is stamped with the
  latest of them.
-/
structure Timely
    (latest : Instant)
    (series : Series) : Prop extends Orderly latest series where
  ascending : series.Ascending
  current : series.Current latest

theorem orderly_nil
    (bound : Instant)
    (unit : UnitId) :
    Orderly bound ⟨unit, []⟩ := by
  constructor
  · exact List.Pairwise.nil
  · simp [Within]

theorem timely_nil
    (latest : Instant)
    (unit : UnitId) :
    Timely latest ⟨unit, []⟩ := by
  refine ⟨orderly_nil latest unit, List.Pairwise.nil, ?_⟩
  simp [Current]

theorem Orderly.mono
    {bound later : Instant}
    {series : Series}
    (hOrderly : series.Orderly bound)
    (hLater : bound ≤ later) :
    series.Orderly later := by
  refine ⟨hOrderly.retentive, ?_⟩
  intro entry hEntry
  exact UInt64.le_trans (hOrderly.within entry hEntry) hLater

theorem Orderly.purge
    {bound : Instant}
    {series : Series}
    (hOrderly : series.Orderly bound) :
    series.purge.Orderly bound :=
  ⟨hOrderly.retentive.purge, hOrderly.within.purge⟩

theorem Orderly.purge_push
    {bound : Instant}
    {series : Series}
    (hOrderly : series.Orderly bound)
    (entry : Entry)
    (hLater : bound ≤ entry.instant) :
    (series.purge.push entry).Orderly entry.instant :=
  ⟨hOrderly.retentive.purge_push entry,
    hOrderly.within.purge_push entry hLater⟩

theorem Orderly.carry
    {bound next : Instant}
    {series : Series}
    (hOrderly : series.Orderly bound)
    (previous : Instant)
    (hLater : bound ≤ next) :
    (series.carry previous next).Orderly next :=
  ⟨hOrderly.retentive.carry previous next,
    hOrderly.within.carry previous hLater⟩

theorem Timely.purge
    {latest : Instant}
    {series : Series}
    (hTimely : series.Timely latest) :
    series.purge.Timely latest :=
  ⟨hTimely.toOrderly.purge, hTimely.ascending.purge,
    current_purge latest hTimely.retentive⟩

theorem Timely.purge_push
    {latest : Instant}
    {series : Series}
    (hTimely : series.Timely latest)
    (entry : Entry)
    (hLater : latest < entry.instant) :
    (series.purge.push entry).Timely entry.instant :=
  ⟨hTimely.toOrderly.purge_push entry (UInt64.le_of_lt hLater),
    hTimely.ascending.purge_push hTimely.within entry hLater,
    current_purge_push hTimely.retentive entry⟩

theorem Timely.carry
    {previous next : Instant}
    {series : Series}
    (hTimely : series.Timely previous)
    (hLater : previous < next) :
    (series.carry previous next).Timely next :=
  ⟨hTimely.toOrderly.carry previous (UInt64.le_of_lt hLater),
    hTimely.ascending.carry hTimely.within hLater,
    hTimely.current.carry hTimely.retentive next⟩

end Series

------------------------------------------------------------
-- Invariants of the Series of an Event
------------------------------------------------------------

namespace EventSeries

/- Units have at most one series, and each has a property. -/
structure Every
    (property : Series → Prop)
    (series : List Series) : Prop where
  distinct : Distinct series
  each : ∀ one ∈ series, property one

theorem every_nil
    (property : Series → Prop) :
    Every property [] := by
  constructor
  · exact List.nodup_nil
  · simp

/- What empty series have, too, the series of any unit has. -/
theorem Every.onUnit
    {property : Series → Prop}
    {series : List Series}
    (hEvery : Every property series)
    {unit : UnitId}
    (hEmpty : property ⟨unit, []⟩) :
    property (onUnit unit series) := by
  by_cases hPresent : unit ∈ series.map Series.unit
  · exact hEvery.each _ (onUnit_mem hPresent)
  · rwa [onUnit_of_notMem hPresent]

theorem Every.imp
    {strong weak : Series → Prop}
    (hImp : ∀ one, strong one → weak one)
    {series : List Series}
    (hEvery : Every strong series) :
    Every weak series := by
  refine ⟨hEvery.distinct, ?_⟩
  intro one hOne
  exact hImp one (hEvery.each one hOne)

/- A purge of the event keeps what a purge of a series keeps. -/
theorem Every.survivors
    {property : Series → Prop}
    {series : List Series}
    (hEvery : Every property series)
    (hPurge : ∀ one, property one → property one.purge) :
    Every property (survivors series) := by
  refine ⟨hEvery.distinct.survivors, ?_⟩
  intro one hOne
  rcases exists_of_mem_survivors hOne with ⟨old, hOld, rfl, _⟩
  exact hPurge old (hEvery.each old hOld)

/-
  A posting leads from one property of the series to another
  if settling and carrying forward do.
-/
theorem Every.change
    {before after : Series → Prop}
    {series : List Series}
    (hEvery : Every before series)
    (posting : Posting)
    (mode : Posting.Mode)
    (value : Count)
    (hEmpty : before ⟨posting.unit, []⟩)
    (hSettle :
      ∀ one,
        before one →
        after (posting.settle mode value series one))
    (hCarry :
      ∀ one,
        before one →
        after (one.carry posting.previous posting.instant)) :
    Every after (posting.change mode value series) := by
  rw [Posting.change_eq]
  refine ⟨Posting.distinct_place
    (Posting.unit_settle _ _ _ _) hEvery.distinct, ?_⟩
  intro one hOne
  rcases Posting.exists_of_mem_place hOne with
    ⟨old, hOld, rfl⟩ | rfl
  · have hBefore := hEvery.each old hOld
    rw [Posting.moved]
    split
    · exact hSettle old hBefore
    · exact hCarry old hBefore
  · exact hSettle _ hEmpty

variable {bound latest : Instant}
variable {series : List Series}

theorem orderly_change
    (posting : Posting)
    (hOrderly : Every (Series.Orderly bound) series)
    (hLater : bound ≤ posting.instant)
    (mode : Posting.Mode)
    (value : Count) :
    Every (Series.Orderly posting.instant)
      (posting.change mode value series) := by
  apply hOrderly.change
  · exact Series.orderly_nil _ _
  · intro one hOne
    exact hOne.purge_push (posting.entry _) hLater
  · intro one hOne
    exact hOne.carry posting.previous hLater

theorem timely_change
    (posting : Posting)
    (hTimely : Every (Series.Timely posting.previous) series)
    (hLater : posting.previous < posting.instant)
    (mode : Posting.Mode)
    (value : Count) :
    Every (Series.Timely posting.instant)
      (posting.change mode value series) := by
  apply hTimely.change
  · exact Series.timely_nil _ _
  · intro one hOne
    exact hOne.purge_push (posting.entry _) hLater
  · intro one hOne
    exact hOne.carry hLater

end EventSeries

------------------------------------------------------------
-- Invariants of Ledgers
------------------------------------------------------------

namespace Ledger

open EventSeries

variable {event : String}
variable {ledger : Ledger}

/- A ledger is opened by purging an event or leaving it alone. -/
theorem every_opened
    {property : Series → Prop}
    (hEvery : Every property (ledger.store.seriesOf event))
    (hPurge : ∀ one, property one → property one.purge)
    (mode : Posting.Mode) :
    Every property ((ledger.opened mode).store.seriesOf event) := by
  rw [seriesOf_opened]
  split
  · exact hEvery.survivors hPurge
  · exact hEvery

theorem orderly_apply
    (hOrderly :
      Every (Series.Orderly ledger.latest)
        (ledger.store.seriesOf event))
    {operation : Operation}
    (hAdvances : ledger.Advances operation) :
    Every (Series.Orderly (ledger.apply operation).latest)
      ((ledger.apply operation).store.seriesOf event) := by
  cases operation with
  | reset => exact hOrderly
  | store mode batch =>
      have hLater : ledger.latest ≤ batch.instant :=
        UInt64.le_of_lt hAdvances
      have hOpened :
          Every (Series.Orderly batch.instant)
            ((ledger.opened mode).store.seriesOf event) := by
        apply (every_opened hOrderly _ mode).imp
        · intro one hOne
          exact hOne.mono hLater
        · intro one hOne
          exact hOne.purge
      rw [latest_apply_store, seriesOf_apply]
      -- Each listing keeps the bound that the batch has set.
      generalize (ledger.opened mode).store.seriesOf event =
        series at hOpened ⊢
      induction batch.valuesOf event generalizing series with
      | nil => exact hOpened
      | cons value values ih =>
          apply ih
          exact orderly_change (batch.posting ledger) hOpened
            (UInt64.le_refl _) mode value

/- The series of any event are orderly as instants advance. -/
theorem orderly_replay
    (event : String)
    {history : List Operation}
    (hAlong : Along Advances empty history) :
    Every (Series.Orderly (empty.replay history).latest)
      ((empty.replay history).store.seriesOf event) := by
  apply hAlong.invariant fun ledger =>
    Every (Series.Orderly ledger.latest)
      (ledger.store.seriesOf event)
  · intro ledger operation hOrderly hAdvances
    exact orderly_apply hOrderly hAdvances
  · exact every_nil _

theorem timely_apply
    (hTimely :
      Every (Series.Timely ledger.latest)
        (ledger.store.seriesOf event))
    {operation : Operation}
    (hAdvances : ledger.Advances operation)
    (hFollows : ledger.Follows event operation) :
    Every (Series.Timely (ledger.apply operation).latest)
      ((ledger.apply operation).store.seriesOf event) := by
  cases operation with
  | reset => exact hTimely
  | store mode batch =>
      rcases Batch.exists_valuesOf_eq hFollows with
        ⟨value, hValue, _⟩
      have hOpened :=
        every_opened hTimely (fun _ hOne => hOne.purge) mode
      rw [latest_apply_store, seriesOf_apply_once hValue]
      exact timely_change (batch.posting ledger) hOpened
        hAdvances mode value

/-
  The series of an event are timely as instants advance, if
  everything that is stored lists the event once.
-/
theorem timely_replay
    {event : String}
    {history : List Operation}
    (hAdvances : Along Advances empty history)
    (hFollows : Along (Follows event) empty history) :
    Every (Series.Timely (empty.replay history).latest)
      ((empty.replay history).store.seriesOf event) := by
  apply (hAdvances.and hFollows).invariant fun ledger =>
    Every (Series.Timely ledger.latest)
      (ledger.store.seriesOf event)
  · intro ledger operation hTimely hCondition
    exact timely_apply hTimely hCondition.1 hCondition.2
  · exact every_nil _

end Ledger

end CoreTally
