import CoreTally.Proofs.Metric.PendingReset
import CoreTally.Proofs.Metric.Register
import Mathlib.Algebra.BigOperators.Ring.Finset

/-
  Counts that are never negative. An event whose entries hold
  no negative values has a total that is at least what any
  part of it holds. So a value that is no smaller than the
  total can be read, and one that still fits on top of it can
  be accumulated, without anything being clipped on the way.

  Key definitions include:
    * `Series.Tallied`
    * `Ledger.Gathers`

  Key theorems include:
    * `Posting.amountAt_read`
    * `Posting.amountAt_accumulate`
    * `Ledger.Gathers.apply_read`
    * `Ledger.Gathers.apply_accumulate`
    * `Ledger.Gathers.toInt_holding`
-/

namespace CoreTally

open EventSeries

/- Without negative counts the magnitude is the sum. -/
theorem Count.magnitude_of_nonneg
    {counts : List Count}
    (hNonneg : ∀ count ∈ counts, 0 ≤ count.toInt) :
    (magnitude counts : Int) = exactTotal counts := by
  induction counts with
  | nil => rfl
  | cons count counts ih =>
      rcases List.forall_mem_cons.mp hNonneg with ⟨hHead, hRest⟩
      have hTail := ih hRest
      rw [magnitude_cons, exactTotal_cons]
      omega

theorem Count.plus_nonneg
    {one other : Count}
    (hOne : 0 ≤ one.toInt)
    (hOther : 0 ≤ other.toInt) :
    0 ≤ (one.plus other).toInt := by
  rw [toInt_plus]
  simp only [least, greatest]
  omega

theorem Count.total_nonneg
    {counts : List Count}
    (hNonneg : ∀ count ∈ counts, 0 ≤ count.toInt) :
    0 ≤ (total counts).toInt := by
  unfold total
  have hStart : 0 ≤ (0 : Count).toInt := Int.le_refl 0
  generalize (0 : Count) = start at hStart
  induction counts generalizing start with
  | nil => exact hStart
  | cons count counts ih =>
      rcases List.forall_mem_cons.mp hNonneg with ⟨hHead, hRest⟩
      exact ih hRest _ (plus_nonneg hStart hHead)

------------------------------------------------------------
-- Tallied Series
------------------------------------------------------------

namespace Series

/- A timely series without negative values. -/
structure Tallied
    (latest : Instant)
    (series : Series) : Prop extends Timely latest series where
  nonneg : ∀ entry ∈ series.entries, 0 ≤ entry.value.toInt

theorem tallied_nil
    (latest : Instant)
    (unit : UnitId) :
    Tallied latest ⟨unit, []⟩ := by
  refine ⟨timely_nil latest unit, ?_⟩
  simp

variable {latest : Instant}
variable {series : Series}

/- What a series holds at any instant is no negative amount. -/
theorem Tallied.share_nonneg
    (hTallied : series.Tallied latest)
    (permanent : Bool)
    (instant : Instant) :
    0 ≤ series.share permanent instant := by
  rw [share]
  cases hLive : series.liveAt? instant with
  | none => exact Int.le_refl 0
  | some last =>
      have hLast : series.last? = some last :=
        (Option.filter_eq_some_iff.mp hLive).1
      have hValue :=
        hTallied.nonneg last (List.mem_of_getLast? hLast)
      dsimp only
      split
      · exact hValue
      · exact Int.le_refl 0

theorem Tallied.amount_nonneg
    (hTallied : series.Tallied latest) :
    0 ≤ series.amount latest := by
  have hTrue := hTallied.share_nonneg true latest
  have hFalse := hTallied.share_nonneg false latest
  rw [amount_eq_shares hTallied.ascending hTallied.within]
  omega

theorem Tallied.purge
    (hTallied : series.Tallied latest) :
    series.purge.Tallied latest := by
  refine ⟨hTallied.toTimely.purge, ?_⟩
  intro entry hEntry
  exact hTallied.nonneg entry
    (series.purge_sublist.subset hEntry)

theorem Tallied.purge_push
    (hTallied : series.Tallied latest)
    {entry : Entry}
    (hLater : latest < entry.instant)
    (hValue : 0 ≤ entry.value.toInt) :
    (series.purge.push entry).Tallied entry.instant := by
  refine ⟨hTallied.toTimely.purge_push entry hLater, ?_⟩
  intro other hOther
  rcases List.mem_append.mp hOther with hOld | hNew
  · exact hTallied.purge.nonneg other hOld
  · rwa [List.mem_singleton.mp hNew]

theorem Tallied.carry
    {next : Instant}
    (hTallied : series.Tallied latest)
    (hLater : latest < next) :
    (series.carry latest next).Tallied next := by
  refine ⟨hTallied.toTimely.carry hLater, ?_⟩
  rcases series.carry_cases latest next with
    hSame | ⟨last, hLast, _, _, hPush⟩
  · rw [hSame]
    exact hTallied.nonneg
  · have hMoved : latest < { last with instant := next }.instant :=
      hLater
    rw [hPush]
    exact (hTallied.purge_push hMoved
      (hTallied.nonneg last (List.mem_of_getLast? hLast))).nonneg

end Series

------------------------------------------------------------
-- Postings
------------------------------------------------------------

namespace Posting

variable {posting : Posting}
variable {series : List Series}
variable {value : Count}

/- Other units do not hold negative values. -/
theorem heldValues_nonneg
    (hTallied : Every (Series.Tallied posting.previous) series)
    (permanent : Bool) :
    ∀ held ∈ posting.heldValues permanent series,
      0 ≤ held.toInt := by
  intro held hHeld
  rcases List.mem_filterMap.mp hHeld with ⟨one, hOne, hSome⟩
  split at hSome
  · contradiction
  · cases hLive : one.liveAt? posting.previous with
    | none => simp [hLive] at hSome
    | some last =>
        have hLast : one.last? = some last :=
          (Option.filter_eq_some_iff.mp hLive).1
        simp only [hLive] at hSome
        split at hSome
        · rw [← Option.some.inj hSome]
          exact (hTallied.each one hOne).nonneg last
            (List.mem_of_getLast? hLast)
        · contradiction

theorem magnitude_held_of_tallied
    (hTallied : Every (Series.Tallied posting.previous) series)
    (permanent : Bool) :
    (Count.magnitude (posting.heldValues permanent series) : Int) =
      Count.exactTotal (posting.heldValues permanent series) :=
  Count.magnitude_of_nonneg (heldValues_nonneg hTallied permanent)

/- A posting whose credits are not negative keeps series tallied. -/
theorem tallied_change
    (hTallied : Every (Series.Tallied posting.previous) series)
    (hLater : posting.previous < posting.instant)
    {mode : Mode}
    (hCredit :
      ∀ own : Series, own.Tallied posting.previous →
        0 ≤ (posting.credit value series own mode).toInt) :
    Every (Series.Tallied posting.instant)
      (posting.change mode value series) := by
  apply hTallied.change
  · exact Series.tallied_nil _ _
  · intro one hOne
    have hEntry :
        posting.previous <
          (posting.entry
            (posting.credit value series one mode)).instant :=
      hLater
    exact hOne.purge_push hEntry (hCredit one hOne)
  · intro one hOne
    exact hOne.carry hLater

/- The parts of a total that the others hold are parts of it. -/
theorem exactTotal_held_le
    (hTallied : Every (Series.Tallied posting.previous) series) :
    0 ≤ Count.exactTotal (posting.heldValues true series) ∧
      0 ≤ Count.exactTotal (posting.heldValues false series) ∧
      (onUnit posting.unit series).share true posting.previous +
          (onUnit posting.unit series).share false
            posting.previous +
          Count.exactTotal (posting.heldValues true series) +
          Count.exactTotal (posting.heldValues false series) =
        amountAt posting.previous series := by
  have hAmount :=
    amountAt_previous (hTallied.imp fun _ h => h.toTimely)
  have hTrue := magnitude_held_of_tallied hTallied true
  have hFalse := magnitude_held_of_tallied hTallied false
  omega

/- A value no smaller than the total is read without a clip. -/
theorem toInt_credit_of_le
    (hTallied : Every (Series.Tallied posting.previous) series)
    (hValue : amountAt posting.previous series ≤ value.toInt)
    (own : Series) :
    (posting.credit value series own .read).toInt =
      value.toInt -
        Count.exactTotal (posting.heldValues false series) ∧
      Count.exactTotal (posting.heldValues false series) ≤
        amountAt posting.previous series := by
  have hOwn := hTallied.onUnit
    (Series.tallied_nil posting.previous posting.unit)
  have hTrueShare := hOwn.share_nonneg true posting.previous
  have hFalseShare := hOwn.share_nonneg false posting.previous
  rcases exactTotal_held_le hTallied with ⟨hTrue, hFalse, hSum⟩
  have hMagnitude := magnitude_held_of_tallied hTallied false
  have hGreatest := Count.toInt_le_greatest value
  have hHeld :
      (posting.held false series).toInt =
        Count.exactTotal (posting.heldValues false series) := by
    apply toInt_held
    omega
  refine ⟨?_, by omega⟩
  rw [credit, Count.minus, hHeld, Count.toInt_clamp_of_mem]
  · simp only [Count.least]
    omega
  · omega

/- Such a read sets the total of the event to its value. -/
theorem amountAt_read
    (posting : Posting)
    (hTallied : Every (Series.Tallied posting.previous) series)
    (hLater : posting.previous < posting.instant)
    (hValue : amountAt posting.previous series ≤ value.toInt) :
    Every (Series.Tallied posting.instant)
        (posting.change .read value series) ∧
      amountAt posting.instant (posting.change .read value series) =
        value.toInt := by
  have hCredit := toInt_credit_of_le hTallied hValue
  constructor
  · apply tallied_change hTallied hLater
    intro own _
    have hOwn := hCredit own
    omega
  · have hSum :=
      sum_amounts_change (hTallied.imp fun _ h => h.toTimely)
        hLater .read value id rfl
    have hOwn := hCredit (onUnit posting.unit series)
    rw [Count.sum_map_id, id, hOwn.1] at hSum
    rw [amountAt]
    exact hSum.trans (by omega)

/- A value that fits on top of the total is added to it. -/
theorem amountAt_accumulate
    (posting : Posting)
    (hTallied : Every (Series.Tallied posting.previous) series)
    (hLater : posting.previous < posting.instant)
    (hNonneg : 0 ≤ value.toInt)
    (hFits :
      amountAt posting.previous series + value.toInt ≤
        Count.greatest) :
    amountAt posting.instant
        (posting.change .accumulate value series) =
      amountAt posting.previous series + value.toInt := by
  have hOwn := hTallied.onUnit
    (Series.tallied_nil posting.previous posting.unit)
  have hTrueShare := hOwn.share_nonneg true posting.previous
  have hFalseShare := hOwn.share_nonneg false posting.previous
  rcases exactTotal_held_le hTallied with ⟨hTrue, hFalse, hSum⟩
  have hMagnitude := magnitude_held_of_tallied hTallied true
  have hCredit :
      (posting.credit value series
          (onUnit posting.unit series) .accumulate).toInt =
        value.toInt +
          Count.exactTotal (posting.heldValues true series) +
          ((onUnit posting.unit series).share true
              posting.previous +
            (onUnit posting.unit series).share false
              posting.previous) := by
    apply toInt_credit_accumulate hOwn.current
    omega
  have hAmounts :=
    sum_amounts_change (hTallied.imp fun _ h => h.toTimely)
      hLater .accumulate value id rfl
  rw [Count.sum_map_id, id, hCredit] at hAmounts
  rw [amountAt]
  exact hAmounts.trans (by omega)

/- Accumulating keeps series tallied, even if something clips. -/
theorem tallied_accumulate
    (posting : Posting)
    (hTallied : Every (Series.Tallied posting.previous) series)
    (hLater : posting.previous < posting.instant)
    (hNonneg : 0 ≤ value.toInt) :
    Every (Series.Tallied posting.instant)
      (posting.change .accumulate value series) := by
  apply tallied_change hTallied hLater
  intro own hOwn
  have hCarried : 0 ≤ (own.carried posting.previous).toInt := by
    have hTrue := hOwn.share_nonneg true posting.previous
    have hFalse := hOwn.share_nonneg false posting.previous
    rw [Series.toInt_carried hOwn.current]
    omega
  have hHeld := Count.total_nonneg (heldValues_nonneg hTallied true)
  exact Count.plus_nonneg (Count.plus_nonneg hNonneg hHeld)
    hCarried

/- Among settled series a read sets the total to its value. -/
theorem amountAt_settled
    (posting : Posting)
    (hTallied : Every (Series.Tallied posting.previous) series)
    (hSettled : Settled series)
    (hLater : posting.previous < posting.instant)
    (hNonneg : 0 ≤ value.toInt) :
    Every (Series.Tallied posting.instant)
        (posting.change .read value series) ∧
      amountAt posting.instant (posting.change .read value series) =
        value.toInt := by
  have hCredit :
      ∀ own : Series,
        posting.credit value series own .read = value := by
    intro own
    rw [credit, held_eq, hSettled.heldValues]
    exact Count.minus_zero value
  constructor
  · apply tallied_change hTallied hLater
    intro own _
    rwa [hCredit own]
  · have hSum :=
      sum_amounts_change (hTallied.imp fun _ h => h.toTimely)
        hLater .read value id rfl
    rw [hSettled.heldValues, hCredit] at hSum
    exact hSum.trans (Int.add_zero _)

end Posting

------------------------------------------------------------
-- Ledgers
------------------------------------------------------------

namespace Ledger

variable {event : String}
variable {ledger : Ledger}
variable {batch : Batch}
variable {value : Count}
variable {total : Int}

/- The series of an event are timely, and hold no negative value. -/
def Tallied (event : String) (ledger : Ledger) : Prop :=
  Every (Series.Tallied ledger.latest)
    (ledger.store.seriesOf event)

/- The event has a total, without negative values. -/
structure Gathers
    (event : String)
    (total : Int)
    (ledger : Ledger) : Prop where
  tallied : ledger.Tallied event
  amount :
    amountAt ledger.latest (ledger.store.seriesOf event) = total

/- A new session has a total of zero for any event. -/
theorem gathers_fresh
    (event : String) :
    empty.requestReset.Gathers event 0 :=
  ⟨every_nil _, rfl⟩

theorem tallied_opened
    (hTallied : ledger.Tallied event)
    (mode : Posting.Mode) :
    Every (Series.Tallied ledger.latest)
      ((ledger.opened mode).store.seriesOf event) :=
  every_opened hTallied (fun _ hOne => hOne.purge) mode

/- A total of an event is never negative. -/
theorem Gathers.nonneg
    (hGathers : ledger.Gathers event total) :
    0 ≤ total := by
  rw [← hGathers.amount, amountAt]
  apply List.sum_nonneg
  intro amount hAmount
  rcases List.mem_map.mp hAmount with ⟨one, hOne, rfl⟩
  exact (hGathers.tallied.each one hOne).amount_nonneg

/- A total that fits the range is what the ledger answers. -/
theorem Gathers.toInt_holding
    (hGathers : ledger.Gathers event total)
    (hFits : total ≤ Count.greatest) :
    (ledger.holding event).toInt = total := by
  have hAbs :
      ((((ledger.store.seriesOf event).map fun one =>
        (one.amount ledger.latest).natAbs).sum : Nat) : Int) =
          total := by
    rw [← hGathers.amount, amountAt, Nat.cast_list_sum,
      List.map_map]
    congr 1
    apply List.map_congr_left
    intro one hOne
    exact Int.natAbs_of_nonneg
      ((hGathers.tallied.each one hOne).amount_nonneg)
  rw [holding, toInt_total (by rw [hAbs]; exact hFits)]
  exact hGathers.amount

/- What is posted to the opened ledger is what it gathers. -/
theorem gathers_store
    {mode : Posting.Mode}
    (hValue : batch.valuesOf event = [value])
    (hPosted :
      let posted :=
        (batch.posting ledger).change mode value
          ((ledger.opened mode).store.seriesOf event)
      Every (Series.Tallied batch.instant) posted ∧
        amountAt batch.instant posted = total) :
    (ledger.apply (.store mode batch)).Gathers event total := by
  constructor
  · rw [Tallied, latest_apply_store, seriesOf_apply_once hValue]
    exact hPosted.1
  · rw [latest_apply_store, seriesOf_apply_once hValue]
    exact hPosted.2

/- The read after a reset sets the total, whatever it was. -/
theorem Tallied.refresh
    (hTallied : ledger.Tallied event)
    (hPending : ledger.pendingReset = true)
    (hLater : ledger.latest < batch.instant)
    (hValue : batch.valuesOf event = [value])
    (hNonneg : 0 ≤ value.toInt) :
    (ledger.apply (.store .read batch)).Gathers event
      value.toInt := by
  have hSettled :
      Settled ((ledger.opened .read).store.seriesOf event) := by
    rw [seriesOf_opened, if_pos ⟨rfl, hPending⟩]
    apply settled_survivors
    intro one hOne
    exact (hTallied.each one hOne).retentive
  apply gathers_store hValue
  exact Posting.amountAt_settled (batch.posting ledger)
    (tallied_opened hTallied .read) hSettled hLater hNonneg

/-
  A read sets the total, to a value that is no smaller unless a
  reset is pending.
-/
theorem Gathers.apply_read
    (hGathers : ledger.Gathers event total)
    (hLater : ledger.latest < batch.instant)
    (hValue : batch.valuesOf event = [value])
    (hNonneg : 0 ≤ value.toInt)
    (hMore : ledger.pendingReset = false → total ≤ value.toInt) :
    (ledger.apply (.store .read batch)).Gathers event
      value.toInt := by
  cases hPending : ledger.pendingReset with
  | true =>
      exact hGathers.tallied.refresh hPending hLater hValue hNonneg
  | false =>
      have hTotal := hGathers.amount.trans_le (hMore hPending)
      apply gathers_store hValue
      rw [opened_of_notPending hPending]
      exact Posting.amountAt_read (batch.posting ledger)
        hGathers.tallied hLater hTotal

/- An accumulate adds a value that fits on top of the total. -/
theorem Gathers.apply_accumulate
    (hGathers : ledger.Gathers event total)
    (hLater : ledger.latest < batch.instant)
    (hValue : batch.valuesOf event = [value])
    (hNonneg : 0 ≤ value.toInt)
    (hFits : total + value.toInt ≤ Count.greatest) :
    (ledger.apply (.store .accumulate batch)).Gathers event
      (total + value.toInt) := by
  have hTallied := hGathers.tallied
  have hAmount := hGathers.amount
  subst hAmount
  apply gathers_store hValue
  have hEvery :=
    Posting.tallied_accumulate (batch.posting ledger) hTallied
      hLater hNonneg
  have hSum :=
    Posting.amountAt_accumulate (batch.posting ledger) hTallied
      hLater hNonneg hFits
  exact ⟨hEvery, hSum⟩

/- Accumulates keep an event tallied, even if something clips. -/
theorem Tallied.apply_accumulate
    (hTallied : ledger.Tallied event)
    (hLater : ledger.latest < batch.instant)
    (hValue : batch.valuesOf event = [value])
    (hNonneg : 0 ≤ value.toInt) :
    (ledger.apply (.store .accumulate batch)).Tallied event := by
  rw [Tallied, latest_apply_store, seriesOf_apply_once hValue]
  exact Posting.tallied_accumulate (batch.posting ledger)
    (tallied_opened hTallied .accumulate) hLater hNonneg

end Ledger

end CoreTally
