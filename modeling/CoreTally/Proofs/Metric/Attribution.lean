import CoreTally.Proofs.Metric.Permanence
import CoreTally.Proofs.Metric.Spread
import CoreTally.Proofs.Metric.Timeliness

/-
  Reads of cumulative values that never decrease, by whatever
  units in turn, credit every unit with exactly the increases
  that happened while it was the one that reported. What was
  kept for good before the reads stays as it was.

  Key definitions include:
    * `Batch.creditedTo`
    * `Ledger.ReadsExactly`
    * `Ledger.Fresh`

  Key theorems include:
    * `Ledger.spread_opened`
    * `Ledger.spread_replay`
    * `Ledger.reads_attribute_increases`
-/

namespace CoreTally

open EventSeries

/-
  The increases of an event in the batches of a unit, after
  the raw value `previous`.
-/
def Batch.creditedTo
    (event : String)
    (unit : UnitId) :
    Int → List Batch → Int
| _, [] => 0
| previous, batch :: rest =>
    (if batch.unit = unit then
      batch.raw event - previous
    else
      0) +
      creditedTo event unit (batch.raw event) rest

namespace Ledger

------------------------------------------------------------
-- Reads
------------------------------------------------------------

/- The batches are read one after another. -/
def reads (batches : List Batch) : List Operation :=
  batches.map (.store .read)

/-
  A ledger whose next read finds nothing temporary, because
  there is nothing at all or because it purges first.
-/
def Fresh (ledger : Ledger) : Prop :=
  ledger = empty ∨ ledger.pendingReset = true

/-
  No sum or difference clips when a read stores the values of
  an event: neither while it adds up what other units hold,
  nor when it takes that from a value.
-/
def ReadsExactly
    (event : String)
    (ledger : Ledger) : Operation → Prop
| .store .read batch =>
    let posting := batch.posting ledger
    let series := (ledger.opened .read).store.seriesOf event
    Count.SumsExactly (posting.heldValues false series) ∧
      ∀ value ∈ batch.valuesOf event,
        (value.minus (posting.held false series)).toInt =
          value.toInt - (posting.held false series).toInt
| _ => True

variable {event : String}
variable {ledger : Ledger}

/- The instant after some reads is that of the last one. -/
theorem latest_replay_reads
    {batches : List Batch}
    (hSome : batches ≠ [])
    (ledger : Ledger) :
    (ledger.replay (reads batches)).latest =
      (batches.getLast hSome).instant := by
  rcases List.eq_nil_or_concat batches with
    rfl | ⟨init, last, rfl⟩
  · contradiction
  · simp [reads, replay_append]

/- After some reads no reset is pending. -/
theorem pendingReset_replay_reads
    {batches : List Batch}
    (hSome : batches ≠ [])
    (ledger : Ledger) :
    (ledger.replay (reads batches)).pendingReset = false := by
  rcases List.eq_nil_or_concat batches with
    rfl | ⟨init, last, rfl⟩
  · contradiction
  · simp [reads, replay_append]

/- Reads advance the instant of the ledger. -/
theorem latest_lt_replay_reads
    {batches : List Batch}
    (hSome : batches ≠ [])
    (hAdvances : Along Advances ledger (reads batches)) :
    ledger.latest < (ledger.replay (reads batches)).latest := by
  induction batches generalizing ledger with
  | nil => contradiction
  | cons batch rest ih =>
      have hFirst :
          ledger.latest <
            (ledger.apply (.store .read batch)).latest := by
        rw [latest_apply_store]
        exact hAdvances.1
      rw [reads, List.map_cons, replay_cons, ← reads]
      by_cases hRest : rest = []
      · subst hRest
        exact hFirst
      · exact UInt64.lt_trans hFirst (ih hRest hAdvances.2)

------------------------------------------------------------
-- The Start
------------------------------------------------------------

/- A fresh ledger is opened with what it keeps for good. -/
theorem spread_opened
    (hOrderly :
      Every (Series.Orderly ledger.latest)
        (ledger.store.seriesOf event))
    (hFresh : ledger.Fresh)
    (latest : Instant) :
    Spread (ledger.permanentsOn event) (fun _ => none) latest 0
      ((ledger.opened .read).store.seriesOf event) := by
  have hPurged :
      (ledger.opened .read).store.seriesOf event =
        survivors (ledger.store.seriesOf event) := by
    rw [seriesOf_opened]
    rcases hFresh with rfl | hPending
    · rfl
    · rw [if_pos ⟨rfl, hPending⟩]
  have hShare :
      ∀ one ∈ survivors (ledger.store.seriesOf event),
        one.share false latest = 0 := by
    intro one hOne
    rcases exists_of_mem_survivors hOne with ⟨old, hOld, rfl, _⟩
    apply Series.share_of_permanent
    intro entry hEntry
    exact Series.permanent_of_mem_purge
      (hOrderly.each old hOld).retentive hEntry
  rw [hPurged]
  constructor
  case distinct => exact hOrderly.distinct.survivors
  case holds =>
    intro unit
    -- Only a last entry may be temporary, so that nothing but
    -- permanent entries is left of the series of the unit.
    have hOwn := hOrderly.onUnit
      (Series.orderly_nil ledger.latest unit)
    rw [onUnit_survivors hOrderly.distinct, Series.Holds,
      Series.entries_purge hOwn.retentive, permanentsOn_eq]
    simp
  case permanent =>
    intro unit entry hEntry
    rw [permanentsOn_eq] at hEntry
    exact (List.mem_filter.mp hEntry).2
  case sum =>
    apply List.sum_eq_zero
    intro amount hAmount
    rcases List.mem_map.mp hAmount with ⟨one, hOne, rfl⟩
    exact hShare one hOne
  case magnitude =>
    apply List.sum_eq_zero
    intro amount hAmount
    rcases List.mem_map.mp hAmount with ⟨one, hOne, rfl⟩
    rw [hShare one hOne]
    rfl

------------------------------------------------------------
-- One Read
------------------------------------------------------------

variable {kept : UnitId → List Entry}
variable {credit : UnitId → Option Count}
variable {total : Int}

/- A read of a value further out spreads it over the units. -/
theorem spread_apply_read
    {batch : Batch}
    (hSpread :
      Spread kept credit ledger.latest total
        ((ledger.opened .read).store.seriesOf event))
    {value : Count}
    (hValue : batch.valuesOf event = [value])
    (hFits : (total.natAbs : Int) ≤ Count.greatest)
    (hOutward : Posting.Outward total value.toInt)
    (hTemporary : batch.permanent = false) :
    let after := ledger.apply (.store .read batch)
    ledger.ReadsExactly event (.store .read batch) ∧
      Spread kept
        (Spread.credited (batch.posting ledger) value
          ((ledger.opened .read).store.seriesOf event) credit)
        after.latest value.toInt
        ((after.opened .read).store.seriesOf event) := by
  have hExact :=
    Spread.exact (batch.posting ledger) hSpread hFits hOutward
  have hRead :=
    Spread.read (batch.posting ledger) hSpread hFits hOutward
      hTemporary
  constructor
  · refine ⟨hExact.1, ?_⟩
    intro other hOther
    rw [hValue, List.mem_singleton] at hOther
    rw [hOther]
    exact hExact.2
  · rw [opened_of_notPending (pendingReset_apply_read ledger batch),
      latest_apply_store, seriesOf_apply_once hValue]
    exact hRead

------------------------------------------------------------
-- Runs of Reads
------------------------------------------------------------

/-
  After reads of values that never decrease, the last value is
  spread over the units. Each of them has got the increases of
  its own batches, and no operation has clipped.
-/
theorem spread_replay
    {batches : List Batch}
    (hSpread :
      Spread kept credit ledger.latest total
        ((ledger.opened .read).store.seriesOf event))
    (hTotal : 0 ≤ total)
    (hFits : total ≤ Count.greatest)
    (hTemporary : ∀ batch ∈ batches, batch.permanent = false)
    (hOnce : ∀ batch ∈ batches, batch.ListsOnce event)
    (hAscending :
      (total :: batches.map (Batch.raw event)).IsChain (· ≤ ·)) :
    let after := ledger.replay (reads batches)
    Along (ReadsExactly event) ledger (reads batches) ∧
      ∃ credit' : UnitId → Option Count,
        (∃ total',
          Spread kept credit' after.latest total'
            ((after.opened .read).store.seriesOf event)) ∧
        ∀ unit,
          worth (credit' unit) =
              worth (credit unit) +
                Batch.creditedTo event unit total batches ∧
            ((credit' unit).isSome = true ↔
              (credit unit).isSome = true ∨
                unit ∈ batches.map Batch.unit) := by
  induction batches generalizing ledger credit total with
  | nil =>
      refine ⟨trivial, credit, ⟨total, hSpread⟩, ?_⟩
      intro unit
      simp [Batch.creditedTo]
  | cons batch rest ih =>
      rcases Batch.exists_valuesOf_eq (hOnce batch (by simp)) with
        ⟨value, hValue, hRaw⟩
      rcases List.isChain_cons_cons.mp hAscending with
        ⟨hStep, hRest⟩
      rw [← hRaw] at hStep hRest
      have hOutward : Posting.Outward total value.toInt :=
        .inl ⟨hTotal, hStep⟩
      have hMagnitude : (total.natAbs : Int) ≤ Count.greatest := by
        omega
      have hWorth :=
        Spread.worth_credited (batch.posting ledger) hSpread
          hMagnitude hOutward
      rcases spread_apply_read hSpread hValue hMagnitude hOutward
        (hTemporary batch (by simp)) with ⟨hExact, hNext⟩
      rcases ih hNext (Int.le_trans hTotal hStep)
        (Count.toInt_le_greatest value)
        (fun other hOther =>
          hTemporary other (List.mem_cons_of_mem _ hOther))
        (fun other hOther =>
          hOnce other (List.mem_cons_of_mem _ hOther))
        hRest with
        ⟨hAlong, credit', hSpread', hCredit'⟩
      refine ⟨⟨hExact, hAlong⟩, credit', hSpread', ?_⟩
      intro unit
      rcases hCredit' unit with ⟨hWorth', hSome'⟩
      constructor
      · rw [hWorth', hWorth, Batch.creditedTo, ← hRaw,
          Int.add_assoc]
        rfl
      · rw [hSome', List.map_cons, List.mem_cons,
          Spread.credited]
        by_cases hUnit : unit = batch.unit
        · simp [hUnit, Batch.posting]
        · simp [hUnit, Batch.posting]

/- What a ledger keeps for good lies behind it. -/
theorem permanentsOn_within
    (hOrderly :
      Every (Series.Orderly ledger.latest)
        (ledger.store.seriesOf event))
    {unit : UnitId}
    {entry : Entry}
    (hEntry : entry ∈ ledger.permanentsOn event unit) :
    entry.instant ≤ ledger.latest := by
  have hOwn := hOrderly.onUnit
    (Series.orderly_nil ledger.latest unit)
  rw [permanentsOn_eq] at hEntry
  exact hOwn.within entry (List.mem_of_mem_filter hEntry)

/-
  Take any ledger that advancing instants lead to, new or with
  a reset pending, and then temporary reads of raw values that
  never decrease. Every unit that has reported ends with one
  temporary entry of the last instant, which holds exactly the
  increases of its own reads. All other entries of the event
  were kept before and are older, and nothing has clipped.
-/
theorem reads_attribute_increases
    {history : List Operation}
    (hHistory : Along Advances empty history)
    (hFresh : (empty.replay history).Fresh)
    {batches : List Batch}
    (hSome : batches ≠ [])
    (hAdvances :
      Along Advances (empty.replay history) (reads batches))
    (hTemporary : ∀ batch ∈ batches, batch.permanent = false)
    (event : String)
    (hOnce : ∀ batch ∈ batches, batch.ListsOnce event)
    (hAscending :
      (0 :: batches.map (Batch.raw event)).IsChain (· ≤ ·)) :
    let before := empty.replay history
    let after := before.replay (reads batches)
    let final := (batches.getLast hSome).instant
    (∀ unit ∈ batches.map Batch.unit,
      ∃ value : Count,
        value.toInt = Batch.creditedTo event unit 0 batches ∧
          after.store.unitSeries? event unit =
            some ⟨unit,
              before.permanentsOn event unit ++
                [⟨final, value, false⟩]⟩) ∧
      (∀ series ∈ after.store.seriesOf event,
        after.store.unitSeries? event series.unit =
            some series ∧
          (series.unit ∉ batches.map Batch.unit →
            series.entries =
              before.permanentsOn event series.unit)) ∧
      (∀ unit, ∀ entry ∈ before.permanentsOn event unit,
        entry.instant < final) ∧
      Along (ReadsExactly event) before (reads batches) := by
  intro before after final
  have hOrderly := orderly_replay event hHistory
  have hStart := spread_opened hOrderly hFresh before.latest
  have hLatest : after.latest = final :=
    latest_replay_reads hSome before
  rcases spread_replay hStart (Int.le_refl 0) (by decide)
    hTemporary hOnce hAscending with
    ⟨hExact, credit, ⟨total, hSpread⟩, hCredit⟩
  rw [opened_of_notPending (pendingReset_replay_reads hSome before)]
    at hSpread
  have hReporter :
      ∀ unit,
        (credit unit).isSome = true ↔
          unit ∈ batches.map Batch.unit := by
    intro unit
    rw [(hCredit unit).2]
    simp
  refine ⟨?_, ?_, ?_, hExact⟩
  · intro unit hUnit
    rcases Option.isSome_iff_exists.mp
      ((hReporter unit).mpr hUnit) with ⟨value, hValue⟩
    have hHolds := hSpread.holds unit
    rw [hValue] at hHolds
    refine ⟨value, ?_, ?_⟩
    · have hWorth := (hCredit unit).1
      rw [hValue, worth_some, worth_none, Int.zero_add] at hWorth
      exact hWorth
    · rw [← hLatest]
      exact Store.unitSeries?_of_entries hHolds (by simp)
  · intro series hSeries
    refine ⟨Store.unitSeries?_of_mem hSpread.distinct hSeries, ?_⟩
    intro hUnit
    have hNone : credit series.unit = none := by
      apply Option.not_isSome_iff_eq_none.mp
      exact mt (hReporter series.unit).mp hUnit
    have hHolds := hSpread.holds series.unit
    rw [onUnit_of_mem hSpread.distinct hSeries, hNone] at hHolds
    exact hHolds.trans (List.append_nil _)
  · intro unit entry hEntry
    rw [← hLatest]
    exact UInt64.lt_of_le_of_lt
      (permanentsOn_within hOrderly hEntry)
      (latest_lt_replay_reads hSome hAdvances)

/-
  A round trip over two units, after a reading that one of
  them keeps for good and a reset.
-/
theorem reads_attribute_increases_round_trip :
    let history : List Operation :=
      [.store .read ⟨0, 3, 1, [⟨"TOT_INS", 10⟩], true⟩,
        .store .accumulate ⟨2, 5, 2, [⟨"TOT_INS", 4⟩], false⟩]
    let batches : List Batch :=
      [⟨0, 3, 3, [⟨"TOT_INS", 100⟩], false⟩,
        ⟨1, 4, 4, [⟨"TOT_CYC", -7⟩, ⟨"TOT_INS", 250⟩], false⟩,
        ⟨0, 3, 6, [⟨"TOT_INS", 600⟩], false⟩]
    let before := empty.replay history
    let after := before.replay (reads batches)
    Along Advances empty history ∧
      before.Fresh ∧
      Along Advances before (reads batches) ∧
      (0 :: batches.map (Batch.raw "TOT_INS")).IsChain (· ≤ ·) ∧
      before.permanentsOn "TOT_INS" 0 = [⟨1, 10, true⟩] ∧
      (∃ value : Count,
        value.toInt = 450 ∧
          after.store.unitSeries? "TOT_INS" 0 =
            some ⟨0, [⟨1, 10, true⟩, ⟨6, value, false⟩]⟩) ∧
      ∃ value : Count,
        value.toInt = 150 ∧
          after.store.unitSeries? "TOT_INS" 1 =
            some ⟨1, [⟨6, value, false⟩]⟩ := by
  intro history batches before after
  have hHistory : Along Advances empty history := by decide
  have hFresh : before.Fresh := .inr (by decide)
  have hAdvances : Along Advances before (reads batches) := by
    decide
  have hAscending :
      (0 :: batches.map (Batch.raw "TOT_INS")).IsChain
        (· ≤ ·) := by
    decide
  have hSome : batches ≠ [] := by decide
  have hReported :=
    (reads_attribute_increases hHistory hFresh hSome hAdvances
      (by decide) "TOT_INS" (by unfold Batch.ListsOnce; decide)
      hAscending).1
  refine ⟨hHistory, hFresh, hAdvances, hAscending, by decide,
    ?_, ?_⟩
  · exact hReported 0 (by decide)
  · exact hReported 1 (by decide)

end Ledger

end CoreTally
