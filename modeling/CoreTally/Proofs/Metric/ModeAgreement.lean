import CoreTally.Proofs.Metric.Attribution

/-
  Reading a cumulative value and accumulating its increase are
  the same, if nothing has been kept for good and the value
  before is spread over the units. Two ledgers that store one
  event set in these two ways differ only in the pending reset.

  Key theorems include:
    * `EventSeries.Spread.read_eq_accumulate`
    * `Ledger.foldl_post_congr`
    * `Ledger.apply_accumulate_eq_read`
-/

namespace CoreTally

open EventSeries

------------------------------------------------------------
-- One Event
------------------------------------------------------------

namespace EventSeries

namespace Spread

variable {credit : UnitId → Option Count}
variable {posting : Posting}
variable {total : Int}
variable {series : List Series}

/- Where nothing is kept for good, others hold nothing so. -/
theorem held_permanent
    (hSpread :
      Spread (fun _ => []) credit posting.previous total series) :
    posting.heldValues true series = [] := by
  rw [Posting.heldValues, List.filterMap_eq_nil_iff]
  intro one hOne
  have hHolds := hSpread.holds one.unit
  rw [onUnit_of_mem hSpread.distinct hOne] at hHolds
  split
  · rfl
  · cases hLive : one.liveAt? posting.previous with
    | none => rfl
    | some last =>
        have hLast : one.last? = some last :=
          (Option.filter_eq_some_iff.mp hLive).1
        have hListed := List.mem_of_getLast? hLast
        rw [hHolds] at hListed
        have hTemporary : last.permanent = false := by
          cases hCredit : credit one.unit with
          | none => simp [hCredit] at hListed
          | some value =>
              rw [hCredit] at hListed
              rw [List.mem_singleton.mp hListed]
        simp [hTemporary]

/- What the reporting unit counts on from is its credit. -/
theorem toInt_carried
    (hSpread :
      Spread (fun _ => []) credit posting.previous total series) :
    ((onUnit posting.unit series).carried
        posting.previous).toInt =
      worth (credit posting.unit) := by
  have hHolds := hSpread.holds posting.unit
  have hPermanent :
      (onUnit posting.unit series).share true
          posting.previous = 0 := by
    generalize onUnit posting.unit series = own at hHolds
    rcases own with ⟨unit, entries⟩
    cases hCredit : credit posting.unit with
    | none =>
        rw [hCredit] at hHolds
        have hEntries : entries = [] := hHolds
        rw [hEntries, Series.share_nil]
    | some value =>
        rw [hCredit] at hHolds
        have hEntries :
            entries = [] ++ [⟨posting.previous, value, false⟩] :=
          hHolds
        rw [hEntries, Series.share_concat]
        simp
  rw [Series.toInt_carried
      (hHolds.current (hSpread.permanent posting.unit)),
    hPermanent, hSpread.share_onUnit, Int.zero_add]

/-
  A read of the next cumulative value changes the series of an
  event exactly as an accumulate of the increase does.
-/
theorem read_eq_accumulate
    (posting : Posting)
    (hSpread :
      Spread (fun _ => []) credit posting.previous total series)
    (hFits : (total.natAbs : Int) ≤ Count.greatest)
    {value delta : Count}
    (hOutward : Posting.Outward total value.toInt)
    (hIncrease : value.toInt = total + delta.toInt) :
    posting.read value series =
      posting.accumulate delta series := by
  rw [Posting.read_eq, Posting.accumulate_eq]
  apply Posting.place_congr hSpread.distinct
  have hHeld : posting.held true series = 0 := by
    rw [Posting.held_eq, hSpread.held_permanent]
    rfl
  have hCarried := hSpread.toInt_carried
  have hWorth :=
    hSpread.worth_credited posting hFits hOutward posting.unit
  rw [credited, if_pos rfl, if_pos rfl, worth_some] at hWorth
  -- Both credits are the old credit of the unit and the
  -- increase. The first one is in range, hence so is the second.
  have hCredit :
      value.minus (posting.held false series) =
        delta.plus
          ((onUnit posting.unit series).carried
            posting.previous) := by
    have hLeast := Count.least_le_toInt
      (value.minus (posting.held false series))
    have hGreatest := Count.toInt_le_greatest
      (value.minus (posting.held false series))
    apply Int64.toInt_inj.mp
    rw [Count.toInt_plus]
    omega
  have hDelta :
      posting.credit delta series
          (onUnit posting.unit series) .accumulate =
        value.minus (posting.held false series) := by
    rw [Posting.credit, hHeld, Count.plus_zero, hCredit]
  rw [Posting.settle, Posting.settle, hDelta]
  rfl

end Spread

end EventSeries

------------------------------------------------------------
-- One Event Set
------------------------------------------------------------

namespace Ledger

theorem requestReset_enlist
    (ledger : Ledger)
    (unit : UnitId)
    (node : Nat) :
    ledger.requestReset.enlist unit node =
      (ledger.enlist unit node).requestReset := by
  unfold enlist requestReset
  split <;> rfl

theorem requestReset_foldl_post
    (unit : UnitId)
    (change : Count → List Series → List Series)
    (readings : List Reading)
    (ledger : Ledger) :
    readings.foldl (post unit change) ledger.requestReset =
      (readings.foldl (post unit change) ledger).requestReset := by
  induction readings generalizing ledger with
  | nil => rfl
  | cons reading readings ih =>
      exact ih (ledger.post unit change reading)

/-
  Two ways to change series agree on a list of readings, if
  they agree on each and no event is listed twice.
-/
theorem foldl_post_congr
    {ι : Type}
    (unit : UnitId)
    (change change' : Count → List Series → List Series)
    (event : ι → String)
    (value value' : ι → Count)
    {items : List ι}
    (hDistinct : (items.map event).Nodup)
    {ledger : Ledger}
    (hAgree :
      ∀ item ∈ items,
        change (value item)
            (ledger.store.seriesOf (event item)) =
          change' (value' item)
            (ledger.store.seriesOf (event item))) :
    (items.map fun item => ⟨event item, value item⟩).foldl
        (post unit change) ledger =
      (items.map fun item => ⟨event item, value' item⟩).foldl
        (post unit change') ledger := by
  induction items generalizing ledger with
  | nil => rfl
  | cons item items ih =>
      rcases List.nodup_cons.mp hDistinct with ⟨hItem, hItems⟩
      have hFirst :
          ledger.post unit change ⟨event item, value item⟩ =
            ledger.post unit change'
              ⟨event item, value' item⟩ := by
        simp only [post, hAgree item List.mem_cons_self]
      rw [List.map_cons, List.map_cons, List.foldl_cons,
        List.foldl_cons, hFirst]
      apply ih hItems
      intro other hOther
      have hEvent : event other ≠ event item :=
        ne_of_mem_of_not_mem (List.mem_map_of_mem hOther) hItem
      rw [post, Store.seriesOf_put, if_neg hEvent]
      exact hAgree other (List.mem_cons_of_mem _ hOther)

end Ledger

section EventSets

variable {ι : Type}
variable {event : ι → String}
variable {items : List ι}
variable {value delta : ι → Count}
variable {total : ι → Int}

namespace Ledger

variable {ledger : Ledger}

/-
  Totals of some events are spread over the units in what the
  next read of the ledger finds, and nothing is kept for good.
-/
def Spreads
    (event : ι → String)
    (total : ι → Int)
    (items : List ι)
    (ledger : Ledger) : Prop :=
  ∀ item ∈ items,
    ∃ credit,
      Spread (fun _ => []) credit ledger.latest (total item)
        ((ledger.opened .read).store.seriesOf (event item))

/- A read of values further out spreads them over the units. -/
theorem Spreads.apply_read
    (hSpreads : ledger.Spreads event total items)
    (hDistinct : (items.map event).Nodup)
    (hFits :
      ∀ item ∈ items,
        ((total item).natAbs : Int) ≤ Count.greatest)
    (hOutward :
      ∀ item ∈ items,
        Posting.Outward (total item) (value item).toInt)
    (unit : UnitId)
    (node : Nat)
    (instant : Instant) :
    (ledger.apply
      (.store .read
        ⟨unit, node, instant, readingsOf event value items,
          false⟩)).Spreads event
        (fun item => (value item).toInt) items := by
  intro item hItem
  rcases hSpreads item hItem with ⟨credit, hSpread⟩
  have hValue :
      Batch.valuesOf (event item)
          ⟨unit, node, instant, readingsOf event value items,
            false⟩ =
        [value item] :=
    filter_readingsOf hDistinct value hItem
  exact ⟨_,
    (spread_apply_read hSpread hValue (hFits item hItem)
      (hOutward item hItem) rfl).2⟩

/-
  Two ledgers that differ in the pending reset, apart from
  what a read would purge, still do so after one of them has
  read the values of an event set and the other one has
  accumulated their increases.
-/
theorem apply_accumulate_eq_read
    (hSpreads : ledger.Spreads event total items)
    (hDistinct : (items.map event).Nodup)
    (hFits :
      ∀ item ∈ items,
        ((total item).natAbs : Int) ≤ Count.greatest)
    (hOutward :
      ∀ item ∈ items,
        Posting.Outward (total item) (value item).toInt)
    (hIncrease :
      ∀ item ∈ items,
        (value item).toInt = total item + (delta item).toInt)
    {other : Ledger}
    (hTwin :
      other.requestReset = (ledger.opened .read).requestReset)
    (unit : UnitId)
    (node : Nat)
    (instant : Instant) :
    other.apply
        (.store .accumulate
          ⟨unit, node, instant, readingsOf event delta items,
            false⟩) =
      (ledger.apply
        (.store .read
          ⟨unit, node, instant, readingsOf event value items,
            false⟩)).requestReset := by
  have hLatest : other.latest = ledger.latest := by
    have hSame := congrArg Ledger.latest hTwin
    rwa [requestReset, requestReset, latest_opened] at hSame
  have hPosting :
      Batch.posting
          ⟨unit, node, instant, readingsOf event delta items,
            false⟩ other =
        Batch.posting
          ⟨unit, node, instant, readingsOf event value items,
            false⟩ ledger := by
    rw [Batch.posting, Batch.posting, hLatest]
  have hOpened :
      other.opened .accumulate =
        (ledger.opened .read).requestReset := hTwin
  rw [apply_store, apply_store, hPosting, hOpened,
    requestReset_enlist, requestReset_foldl_post]
  rw [readingsOf, readingsOf,
    foldl_post_congr unit
      (Posting.change _ .accumulate) (Posting.change _ .read)
      event delta value hDistinct]
  · rfl
  · intro item hItem
    rcases hSpreads item hItem with ⟨credit, hSpread⟩
    rw [store_enlist]
    exact (Spread.read_eq_accumulate
      (Batch.posting
        ⟨unit, node, instant, readingsOf event value items,
          false⟩ ledger)
      hSpread (hFits item hItem) (hOutward item hItem)
      (hIncrease item hItem)).symm

end Ledger

end EventSets

end CoreTally
