import CoreTally.Proofs.Metric.PermanentHistory

/-
  Entries of the latest instant, as instants advance and an event
  is listed once by everything that is stored. All of its temporary
  entries are of that instant. Of the permanent ones at most one is,
  and it belongs to the unit that has reported last: other units are
  carried forward with what is temporary only.

  Key definitions include:
    * `EventSeries.keptAt`
    * `EventSeries.KeptBy`
    * `Ledger.reporter?`

  Key theorems include:
    * `EventSeries.keptBy_change`
    * `EventSeries.length_keptAt_le_one`
    * `Ledger.keptBy_replay`
    * `Ledger.latest_entries_are_live`
-/

namespace CoreTally

------------------------------------------------------------
-- Entries of One Series
------------------------------------------------------------

/- What is carried forward leaves permanent entries behind. -/
theorem Series.Within.le_of_mem_carry
    {previous : Instant}
    {series : Series}
    (hWithin : series.Within previous)
    {next : Instant}
    {entry : Entry}
    (hEntry : entry ∈ (series.carry previous next).entries)
    (hPermanent : entry.permanent = true) :
    entry.instant ≤ previous := by
  rcases series.carry_cases previous next with
    hSame | ⟨last, _, hTemporary, _, hPush⟩
  · rw [hSame] at hEntry
    exact hWithin entry hEntry
  · rw [hPush] at hEntry
    rcases List.mem_append.mp hEntry with hOld | hNew
    · exact hWithin.purge entry hOld
    · rw [List.mem_singleton.mp hNew] at hPermanent
      rw [hTemporary] at hPermanent
      contradiction

------------------------------------------------------------
-- Entries of an Event
------------------------------------------------------------

namespace EventSeries

/- The permanent entries of an instant, with their units. -/
def keptAt
    (instant : Instant)
    (series : List Series) : List (UnitId × Entry) :=
  (stamped instant series).filter (·.2.permanent)

/- Permanent entries of an instant are all in series of a unit. -/
def KeptBy
    (unit : UnitId)
    (instant : Instant)
    (series : List Series) : Prop :=
  ∀ record ∈ keptAt instant series, record.1 = unit

theorem mem_keptAt_iff
    (instant : Instant)
    (series : List Series)
    (record : UnitId × Entry) :
    record ∈ keptAt instant series ↔
      ∃ one ∈ series,
        record.2 ∈ one.entries ∧
          record.2.instant = instant ∧
          record.2.permanent = true ∧
          record.1 = one.unit := by
  simp only [keptAt, stamped, List.mem_filter, List.mem_flatMap,
    List.mem_map, beq_iff_eq]
  constructor
  · rintro ⟨⟨one, hOne, entry, ⟨hEntry, hInstant⟩, rfl⟩, hKept⟩
    exact ⟨one, hOne, hEntry, hInstant, hKept, rfl⟩
  · rintro ⟨one, hOne, hEntry, hInstant, hKept, hUnit⟩
    exact
      ⟨⟨one, hOne, record.2, ⟨hEntry, hInstant⟩, by rw [← hUnit]⟩,
        hKept⟩

variable {series : List Series}

/-
  A posting keeps permanent entries of its instant for its own unit
  only, because everything else is of an earlier one.
-/
theorem keptBy_change
    (posting : Posting)
    (hTimely : Every (Series.Timely posting.previous) series)
    (hLater : posting.previous < posting.instant)
    (mode : Posting.Mode)
    (value : Count) :
    KeptBy posting.unit posting.instant
      (posting.change mode value series) := by
  intro record hRecord
  rcases (mem_keptAt_iff _ _ _).mp hRecord with
    ⟨one, hOne, hEntry, hInstant, hKept, hUnit⟩
  rw [hUnit]
  rw [Posting.change_eq] at hOne
  rcases Posting.exists_of_mem_place hOne with
    ⟨old, hOld, rfl⟩ | rfl
  · by_cases hOwn : old.unit = posting.unit
    · rw [Posting.unit_moved (Posting.unit_settle _ _ _ _), hOwn]
    · rw [Posting.moved, if_neg hOwn] at hEntry
      have hEarlier :=
        (hTimely.each old hOld).within.le_of_mem_carry hEntry hKept
      rw [hInstant] at hEarlier
      exact absurd hLater (UInt64.not_lt.mpr hEarlier)
  · rfl

/- If they are of one unit, there is at most one of them. -/
theorem length_keptAt_le_one
    {latest : Instant}
    {unit : UnitId}
    (hTimely : Every (Series.Timely latest) series)
    (hKept : KeptBy unit latest series) :
    (keptAt latest series).length ≤ 1 := by
  have hAll :
      keptAt latest series =
        series.flatMap fun one =>
          ((one.entries.filter (·.instant == latest)).map
            (one.unit, ·)).filter (·.2.permanent) :=
    List.filter_flatMap
  rw [hAll, flatMap_eq_onUnit hTimely.distinct _ unit]
  · have hOwn := hTimely.onUnit (Series.timely_nil latest unit)
    refine Nat.le_trans (List.length_filter_le _ _) ?_
    rw [List.length_map]
    exact hOwn.ascending.length_filter_le_one latest
  · rfl
  · intro one hOne hOther
    rw [List.filter_eq_nil_iff]
    intro record hRecord hPermanent
    apply hOther
    have hMem : record ∈ keptAt latest series := by
      rw [hAll]
      exact List.mem_flatMap.mpr
        ⟨one, hOne, List.mem_filter.mpr ⟨hRecord, hPermanent⟩⟩
    rcases List.mem_map.mp hRecord with ⟨entry, _, rfl⟩
    exact hKept _ hMem

end EventSeries

------------------------------------------------------------
-- Histories
------------------------------------------------------------

namespace Ledger

open EventSeries

/- The unit that an operation stores values for. -/
def Operation.unit? : Operation → Option UnitId
| .store _ batch => some batch.unit
| .reset => none

/- The unit that has reported last in a history, if any has. -/
def reporter? (history : List Operation) : Option UnitId :=
  history.reverse.findSome? Operation.unit?

theorem reporter?_concat
    (history : List Operation)
    (operation : Operation) :
    reporter? (history ++ [operation]) =
      operation.unit?.or (reporter? history) := by
  rw [reporter?, List.reverse_concat, List.findSome?_cons]
  cases operation.unit? <;> rfl

variable {event : String}
variable {history : List Operation}

/- What is kept at the latest instant is of the last reporter. -/
theorem keptBy_replay
    (hAdvances : Along Advances empty history)
    (hFollows : Along (Follows event) empty history)
    {unit : UnitId}
    (hReporter : reporter? history = some unit) :
    KeptBy unit (empty.replay history).latest
      ((empty.replay history).store.seriesOf event) := by
  induction history using List.reverseRecOn with
  | nil => contradiction
  | append_singleton history operation ih =>
      rcases along_concat.mp hAdvances with ⟨hBefore, hAdvance⟩
      rcases along_concat.mp hFollows with ⟨hListed, hFollow⟩
      rw [reporter?_concat] at hReporter
      rw [replay_append]
      cases operation with
      | reset => exact ih hBefore hListed hReporter
      | store mode batch =>
          cases Option.some.inj hReporter
          rcases Batch.exists_valuesOf_eq hFollow with
            ⟨value, hValue, _⟩
          have hOpened :=
            every_opened (timely_replay hBefore hListed)
              (fun _ hOne => hOne.purge) mode
          rw [replay_cons, replay_nil, latest_apply_store,
            seriesOf_apply_once hValue]
          exact keptBy_change (batch.posting (empty.replay history))
            hOpened hAdvance mode value

/-
  As instants advance and an event is always listed once, no entry
  of the event is later than the latest instant, and the temporary
  ones are stamped with it. Once a unit has reported, at most one
  permanent entry is stamped with it, too, and that one is in the
  series of the unit that reported last.
-/
theorem latest_entries_are_live
    (hAdvances : Along Advances empty history)
    (hFollows : Along (Follows event) empty history) :
    let ledger := empty.replay history
    let series := ledger.store.seriesOf event
    (∀ one ∈ series, ∀ entry ∈ one.entries,
      (entry.permanent = false → entry.instant = ledger.latest) ∧
        entry.instant ≤ ledger.latest) ∧
    ∀ unit, reporter? history = some unit →
      (keptAt ledger.latest series).length ≤ 1 ∧
        ∀ record ∈ keptAt ledger.latest series,
          record.1 = unit := by
  intro ledger series
  have hTimely : Every (Series.Timely ledger.latest) series :=
    timely_replay hAdvances hFollows
  constructor
  · intro one hOne entry hEntry
    have hSeries := hTimely.each one hOne
    exact ⟨hSeries.current entry hEntry,
      hSeries.within entry hEntry⟩
  · intro unit hReporter
    have hKept : KeptBy unit ledger.latest series :=
      keptBy_replay hAdvances hFollows hReporter
    exact ⟨length_keptAt_le_one hTimely hKept, hKept⟩

/-
  One unit reports for good, another one for a time, and the first
  one again. Its two permanent entries are of different instants,
  and the other unit has been carried forward.
-/
theorem latest_entries_are_live_after_mixed_calls :
    let history : List Operation :=
      [.store .read ⟨0, 3, 1, [⟨"TOT_INS", 10⟩], true⟩,
        .store .read ⟨1, 4, 2, [⟨"TOT_INS", 15⟩], false⟩,
        .store .accumulate
          ⟨0, 3, 5, [⟨"BR_MSP", 1⟩, ⟨"TOT_INS", 4⟩], true⟩,
        .reset]
    let ledger := empty.replay history
    let series := ledger.store.seriesOf "TOT_INS"
    Along Advances empty history ∧
      Along (Follows "TOT_INS") empty history ∧
      reporter? history = some 0 ∧
      series =
        [⟨0, [⟨1, 10, true⟩, ⟨5, 4, true⟩]⟩, ⟨1, [⟨5, 15, false⟩]⟩] ∧
      (∀ one ∈ series, ∀ entry ∈ one.entries,
        (entry.permanent = false → entry.instant = ledger.latest) ∧
          entry.instant ≤ ledger.latest) ∧
      (keptAt ledger.latest series).length ≤ 1 ∧
      ∀ record ∈ keptAt ledger.latest series, record.1 = 0 := by
  intro history ledger series
  have hAdvances : Along Advances empty history := by decide
  have hFollows : Along (Follows "TOT_INS") empty history := by
    decide
  have hReporter : reporter? history = some 0 := by decide
  rcases latest_entries_are_live hAdvances hFollows with
    ⟨hLive, hKept⟩
  exact ⟨hAdvances, hFollows, hReporter, by decide, hLive,
    hKept 0 hReporter⟩

end Ledger

end CoreTally
