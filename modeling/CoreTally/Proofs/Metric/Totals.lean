import CoreTally.Proofs.Metric.Register
import CoreTally.Proofs.Metric.UnitCounts
import Mathlib.Algebra.BigOperators.Group.Finset.Basic

/-
  Totals of an event for any instant. The search for the series of
  one unit ends at the first of them, and a sum over all units adds
  every series up. Both agree because no unit has two series of an
  event, which is so in every ledger, however its instants go.

  Key definitions include:
    * `Series.valueAt`
    * `Series.Recent`
    * `Store.unitsOf`
    * `Ledger.CountsFit`

  Key theorems include:
    * `Store.total_of_recent`
    * `Store.total_all`
    * `Ledger.sum_participants`
    * `Ledger.totals_sum_up_units`
-/

namespace CoreTally

open EventSeries

------------------------------------------------------------
-- Values of One Series
------------------------------------------------------------

namespace Series

/- What a series holds for an instant, zero without an entry. -/
def valueAt
    (instant : Instant)
    (series : Series) : Count :=
  match series.at? instant with
  | none => 0
  | some entry => entry.value

/- The most recent one of the entries stamped with an instant. -/
def Recent
    (instant : Instant)
    (series : Series)
    (entry : Entry) : Prop :=
  ∃ front back,
    series.entries = front ++ entry :: back ∧
      entry.instant = instant ∧
        ∀ later ∈ back, later.instant ≠ instant

@[simp] theorem valueAt_nil
    (instant : Instant)
    (unit : UnitId) :
    valueAt instant ⟨unit, []⟩ = 0 := rfl

theorem at?_of_recent
    {instant : Instant}
    {series : Series}
    {entry : Entry}
    (hRecent : series.Recent instant entry) :
    series.at? instant = some entry := by
  rcases hRecent with ⟨front, back, hEntries, hInstant, hBack⟩
  rw [at?, List.find?_eq_some_iff_append, hEntries]
  refine ⟨by simpa using hInstant, back.reverse, front.reverse,
    by simp, ?_⟩
  intro later hLater
  simpa using hBack later (List.mem_reverse.mp hLater)

theorem valueAt_of_recent
    {instant : Instant}
    {series : Series}
    {entry : Entry}
    (hRecent : series.Recent instant entry) :
    series.valueAt instant = entry.value := by
  simp only [valueAt, at?_of_recent hRecent]

theorem valueAt_of_unstamped
    {instant : Instant}
    {series : Series}
    (hUnstamped :
      ∀ entry ∈ series.entries, entry.instant ≠ instant) :
    series.valueAt instant = 0 := by
  have hNone : series.at? instant = none := by
    rw [at?, List.find?_eq_none]
    intro entry hEntry
    simpa using hUnstamped entry (List.mem_reverse.mp hEntry)
  simp only [valueAt, hNone]

end Series

------------------------------------------------------------
-- Sums over the Series of an Event
------------------------------------------------------------

namespace EventSeries

/- Series without an entry for the instant add nothing. -/
theorem total_valuesAt
    (instant : Instant)
    (series : List Series) :
    Count.total (valuesAt instant series) =
      Count.total (series.map (Series.valueAt instant)) := by
  unfold Count.total
  generalize (0 : Count) = start
  induction series generalizing start with
  | nil => rfl
  | cons one series ih =>
      rw [valuesAt, List.filterMap_cons, ← valuesAt,
        List.map_cons, List.foldl_cons]
      cases hEntry : one.at? instant with
      | none =>
          have hZero : one.valueAt instant = 0 := by
            simp only [Series.valueAt, hEntry]
          rw [hZero, Count.plus_zero]
          exact ih start
      | some entry =>
          have hValue : one.valueAt instant = entry.value := by
            simp only [Series.valueAt, hEntry]
          rw [hValue]
          exact ih (start.plus entry.value)

/- On one unit, the first of its series is the only one added. -/
theorem sumFrom_some
    (unit : UnitId)
    (instant : Instant)
    (series : List Series) :
    Store.sumFrom (some unit) instant 0 series =
      match series.find? (·.unit == unit) with
      | none => 0
      | some one => one.valueAt instant := by
  induction series with
  | nil => rfl
  | cons one series ih =>
      rw [Store.sumFrom]
      by_cases hUnit : one.unit = unit
      · subst hUnit
        rw [List.find?_cons_of_pos (by simp), if_neg (by simp),
          if_pos rfl]
        cases hEntry : one.at? instant with
        | none => simp only [Series.valueAt, hEntry]
        | some entry =>
            simp only [Series.valueAt, hEntry, Count.zero_plus]
      · rw [List.find?_cons_of_neg (by simpa using hUnit),
          if_pos (by simpa using Ne.symm hUnit)]
        exact ih

end EventSeries

------------------------------------------------------------
-- Totals of a Store
------------------------------------------------------------

namespace Store

/- The units with a series of an event, in the order of storage. -/
def unitsOf
    (store : Store)
    (event : String) : List UnitId :=
  (store.seriesOf event).map Series.unit

variable (store : Store)
variable (event : String)
variable (instant : Instant)

/- The total on one unit is what its series holds. -/
theorem total_unit
    (unit : UnitId) :
    store.total event (some unit) instant =
      (onUnit unit (store.seriesOf event)).valueAt instant := by
  rw [total, sumFrom_some, onUnit]
  cases (store.seriesOf event).find? (·.unit == unit) <;> rfl

/- A unit without a series adds nothing. -/
theorem total_unit_of_notMem
    {unit : UnitId}
    (hUnit : unit ∉ store.unitsOf event) :
    store.total event (some unit) instant = 0 := by
  rw [total_unit, onUnit_of_notMem hUnit, Series.valueAt_nil]

variable {store event}

/- The series of a unit is the only one that its total depends on. -/
theorem total_unit_of_mem
    (hDistinct : Distinct (store.seriesOf event))
    {one : Series}
    (hOne : one ∈ store.seriesOf event) :
    store.total event (some one.unit) instant =
      one.valueAt instant := by
  rw [total_unit, onUnit_of_mem hDistinct hOne]

variable {instant}

/- The total on one unit is its most recent value of the instant. -/
theorem total_of_recent
    (hDistinct : Distinct (store.seriesOf event))
    {one : Series}
    (hOne : one ∈ store.seriesOf event)
    {entry : Entry}
    (hRecent : one.Recent instant entry) :
    store.total event (some one.unit) instant = entry.value := by
  rw [total_unit_of_mem instant hDistinct hOne,
    Series.valueAt_of_recent hRecent]

/- It is zero if the unit has no value of the instant. -/
theorem total_of_unstamped
    {unit : UnitId}
    (hUnstamped :
      ∀ one ∈ store.seriesOf event,
        one.unit = unit →
          ∀ entry ∈ one.entries, entry.instant ≠ instant) :
    store.total event (some unit) instant = 0 := by
  by_cases hUnit : unit ∈ store.unitsOf event
  · rw [total_unit]
    exact Series.valueAt_of_unstamped
      (hUnstamped _ (onUnit_mem hUnit) (unit_onUnit _ _))
  · exact total_unit_of_notMem store event instant hUnit

variable (instant)

/- The total over all units adds up the totals on each of them. -/
theorem total_all
    (hDistinct : Distinct (store.seriesOf event)) :
    store.total event none instant =
      Count.total
        ((store.unitsOf event).map fun unit =>
          store.total event (some unit) instant) := by
  have hTotals :
      (store.unitsOf event).map
          (fun unit => store.total event (some unit) instant) =
        (store.seriesOf event).map (Series.valueAt instant) := by
    rw [unitsOf, List.map_map]
    apply List.map_congr_left
    intro one hOne
    exact total_unit_of_mem instant hDistinct hOne
  rw [hTotals, ← total_valuesAt]
  exact sumFrom_none _ _ _

/- It is their plain sum if no part of that leaves the range. -/
theorem toInt_total_all
    (hDistinct : Distinct (store.seriesOf event))
    (hRange :
      ∀ first,
        first <+:
            (store.unitsOf event).map
              (fun unit => store.total event (some unit) instant) →
          Count.least ≤ Count.exactTotal first ∧
            Count.exactTotal first ≤ Count.greatest) :
    (store.total event none instant).toInt =
      ((store.unitsOf event).map fun unit =>
        (store.total event (some unit) instant).toInt).sum := by
  rw [total_all instant hDistinct,
    Count.toInt_total_of_prefixes hRange, Count.exactTotal,
    List.map_map]
  rfl

end Store

------------------------------------------------------------
-- Totals of a Ledger
------------------------------------------------------------

namespace Ledger

variable {history : List Operation}

/-
  At no time a unit has more series than a participant can count.
  One that had would lose its place while it still has series.
-/
def CountsFit (history : List Operation) : Prop :=
  ∀ done, done <+: history →
    ∀ unit,
      (empty.replay done).store.seriesCount unit < UInt32.size

/- The series of not too many events can be counted. -/
theorem countsFit_of_few
    (hFew : (eventsOf history).toFinset.card < UInt32.size) :
    CountsFit history := by
  rintro done ⟨rest, rfl⟩ unit
  have hEvents := card_eventsOf_append_le done rest
  have hSize := size_replay_le done
  have hCount :=
    (empty.replay done).store.seriesCount_le_size unit
  omega

/- Units with a series of an event are participants. -/
theorem CountsFit.unitsOf_subset
    (hFit : CountsFit history)
    (event : String) :
    (empty.replay history).store.unitsOf event ⊆
      (empty.replay history).participants.keys := by
  intro unit hUnit
  have hCounts : (empty.replay history).Counts unit :=
    counts_replay fun done hDone => hFit done hDone unit
  have hContains :=
    hCounts.contains (Store.seriesCount_pos hUnit)
  rw [OrderedMap.contains, Option.isSome_iff_exists] at hContains
  exact OrderedMap.mem_keys_iff.mpr hContains

/-
  A sum over all participants is one over the units of an event,
  if other units add nothing.
-/
theorem sum_participants
    {ledger : Ledger}
    {event : String}
    (hDistinct : Distinct (ledger.store.seriesOf event))
    (hUnits :
      ledger.store.unitsOf event ⊆ ledger.participants.keys)
    (f : UnitId → Int)
    (hOthers : ∀ unit, unit ∉ ledger.store.unitsOf event → f unit = 0) :
    (ledger.participants.keys.map f).sum =
      ((ledger.store.unitsOf event).map f).sum := by
  have hNodup : (ledger.store.unitsOf event).Nodup := hDistinct
  rw [← List.sum_toFinset f ledger.participants.nodup_keys,
    ← List.sum_toFinset f hNodup]
  symm
  apply Finset.sum_subset
  · intro unit hUnit
    exact List.mem_toFinset.mpr (hUnits (List.mem_toFinset.mp hUnit))
  · intro unit _ hUnit
    exact hOthers unit fun hMem =>
      hUnit (List.mem_toFinset.mpr hMem)

/-
  In every reachable ledger, the total of an event on one unit is
  the most recent value of the instant in its series, and zero if
  there is none. The total over all units is the saturating sum of
  the totals on each of them, in the order of storage. If no part of
  that sum leaves the range it is the plain sum, over the units of
  the event and so over all participants.
-/
theorem totals_sum_up_units
    (history : List Operation)
    (event : String)
    (instant : Instant) :
    let ledger := empty.replay history
    let units := ledger.store.unitsOf event
    let totalOn := fun unit =>
      ledger.store.total event (some unit) instant
    let total := ledger.store.total event none instant
    (∀ unit,
      (∀ series ∈ ledger.store.seriesOf event,
        series.unit = unit →
          ∀ entry,
            series.Recent instant entry →
              totalOn unit = entry.value) ∧
      ((∀ series ∈ ledger.store.seriesOf event,
        series.unit = unit →
          ∀ entry ∈ series.entries, entry.instant ≠ instant) →
        totalOn unit = 0)) ∧
    total = Count.total (units.map totalOn) ∧
    ((∀ first, first <+: units.map totalOn →
        Count.least ≤ Count.exactTotal first ∧
          Count.exactTotal first ≤ Count.greatest) →
      total.toInt = (units.map fun unit => (totalOn unit).toInt).sum ∧
        (CountsFit history →
          total.toInt =
            (ledger.participants.keys.map fun unit =>
              (totalOn unit).toInt).sum)) := by
  intro ledger units totalOn total
  have hDistinct : Distinct (ledger.store.seriesOf event) :=
    ((sound_replay history).every event).distinct
  refine ⟨?_, Store.total_all instant hDistinct, ?_⟩
  · intro unit
    constructor
    · rintro series hSeries rfl entry hRecent
      exact Store.total_of_recent hDistinct hSeries hRecent
    · exact Store.total_of_unstamped
  · intro hRange
    have hPlain :
        total.toInt =
          (units.map fun unit => (totalOn unit).toInt).sum :=
      Store.toInt_total_all instant hDistinct hRange
    refine ⟨hPlain, fun hFit => ?_⟩
    rw [hPlain]
    symm
    apply sum_participants hDistinct (hFit.unitsOf_subset event)
    intro unit hUnit
    rw [show totalOn unit = 0 from
      Store.total_unit_of_notMem _ _ _ hUnit]
    rfl

/-
  The instant has come up again and again. One unit has two entries
  for it, of which the second counts, and another participant has
  none.
-/
theorem totals_sum_up_units_of_repeated_instant :
    let history : List Operation :=
      [.store .read ⟨0, 3, 5, [⟨"TOT_INS", 10⟩], true⟩,
        .store .read ⟨0, 3, 5, [⟨"TOT_INS", 20⟩], true⟩,
        .store .read ⟨2, 5, 5, [⟨"BR_MSP", 1⟩], false⟩,
        .store .accumulate ⟨1, 4, 5, [⟨"TOT_INS", 7⟩], false⟩]
    let ledger := empty.replay history
    let totalOn := fun unit =>
      ledger.store.total "TOT_INS" (some unit) 5
    let own : Series := ⟨0, [⟨5, 10, true⟩, ⟨5, 20, true⟩]⟩
    let counts := (ledger.store.unitsOf "TOT_INS").map totalOn
    own ∈ ledger.store.seriesOf "TOT_INS" ∧
      own.Recent 5 ⟨5, 20, true⟩ ∧
      (∀ first, first <+: counts →
        Count.least ≤ Count.exactTotal first ∧
          Count.exactTotal first ≤ Count.greatest) ∧
      CountsFit history ∧
      ledger.participants.keys = [0, 1, 2] ∧
      totalOn 0 = 20 ∧
      (ledger.store.total "TOT_INS" none 5).toInt =
        (ledger.participants.keys.map fun unit =>
          (totalOn unit).toInt).sum := by
  intro history ledger totalOn own counts
  have hOwn : own ∈ ledger.store.seriesOf "TOT_INS" := by decide
  have hRecent : own.Recent 5 ⟨5, 20, true⟩ :=
    ⟨[⟨5, 10, true⟩], [], rfl, rfl, by simp⟩
  have hRange :
      ∀ first, first <+: counts →
        Count.least ≤ Count.exactTotal first ∧
          Count.exactTotal first ≤ Count.greatest := by
    intro first hFirst
    have hAll :
        counts.inits.all (fun first =>
            Count.least ≤ Count.exactTotal first ∧
              Count.exactTotal first ≤ Count.greatest) =
          true := by
      decide
    exact of_decide_eq_true
      (List.all_eq_true.mp hAll first
        ((List.mem_inits _ _).mpr hFirst))
  have hFit : CountsFit history := countsFit_of_few (by decide)
  rcases totals_sum_up_units history "TOT_INS" 5 with
    ⟨hUnits, -, hPlain⟩
  exact ⟨hOwn, hRecent, hRange, hFit, by decide,
    (hUnits 0).1 own hOwn rfl _ hRecent, (hPlain hRange).2 hFit⟩

end Ledger

end CoreTally
