import CoreTally.Proofs.Metric.Timeliness
import Mathlib.Algebra.Order.BigOperators.Group.List
import Mathlib.Algebra.Order.Group.Nat

/-
  The total of an event over all units is one register: a read
  sets it, an accumulate adds to it, and a reset leaves it
  alone. How the counts are spread over the units, which of
  them are kept for good and whether a reset is pending does
  not matter.

  Key definitions include:
    * `EventSeries.amountAt`
    * `EventSeries.magnitudeAt`
    * `Posting.Mode.result`
    * `Ledger.holding`
    * `Ledger.Fits`
    * `Ledger.Operation.register`

  Key theorems include:
    * `Posting.amountAt_change`
    * `Ledger.holding_apply`
    * `Ledger.holding_is_register`
-/

namespace CoreTally

open EventSeries

------------------------------------------------------------
-- Amounts of One Series
------------------------------------------------------------

namespace Series

theorem amount_push
    (series : Series)
    (entry : Entry) :
    amount entry.instant (series.push entry) =
      entry.value.toInt := by
  rw [amount, push, at?_concat, if_pos rfl]

/- A series that is carried forward adds what is temporary. -/
theorem amount_carry
    {previous next : Instant}
    {series : Series}
    (hTimely : series.Timely previous)
    (hLater : previous < next) :
    amount next (series.carry previous next) =
      share false previous series := by
  have hNext := hTimely.carry hLater
  rw [amount_eq_shares hNext.ascending hNext.within,
    share_carry_permanent hTimely.within hLater,
    share_carry_temporary hTimely.current, zero_add]

theorem natAbs_amount_le
    {latest : Instant}
    {series : Series}
    (hTimely : series.Timely latest) :
    (series.amount latest).natAbs ≤ series.magnitudeAt latest := by
  have hShares := natAbs_shares_le latest series
  rw [amount_eq_shares hTimely.ascending hTimely.within]
  omega

end Series

------------------------------------------------------------
-- Amounts of an Event
------------------------------------------------------------

namespace EventSeries

/- What the series of an event hold together for an instant. -/
def amountAt
    (instant : Instant)
    (series : List Series) : Int :=
  (series.map (Series.amount instant)).sum

/- The magnitude of all entries stamped with an instant. -/
def magnitudeAt
    (instant : Instant)
    (series : List Series) : Nat :=
  (series.map (Series.magnitudeAt instant)).sum

/- The values that are added up to the total of an instant. -/
def valuesAt
    (instant : Instant)
    (series : List Series) : List Count :=
  series.filterMap fun one =>
    (one.at? instant).map Entry.value

theorem sumFrom_none
    (instant : Instant)
    (sum : Count)
    (series : List Series) :
    Store.sumFrom none instant sum series =
      (valuesAt instant series).foldl Count.plus sum := by
  induction series generalizing sum with
  | nil => rfl
  | cons head series ih =>
      rw [Store.sumFrom, valuesAt, List.filterMap_cons, ← valuesAt]
      cases head.at? instant with
      | none => exact ih sum
      | some entry => exact ih (sum.plus entry.value)

theorem sum_valuesAt
    {M : Type}
    [AddCommMonoid M]
    (instant : Instant)
    (series : List Series)
    (f : Int → M)
    (hZero : f 0 = 0) :
    ((valuesAt instant series).map
        fun value => f value.toInt).sum =
      (series.map fun one => f (one.amount instant)).sum := by
  induction series with
  | nil => rfl
  | cons head series ih =>
      rw [valuesAt, List.filterMap_cons, ← valuesAt,
        List.map_cons, List.sum_cons, ← ih, Series.amount]
      cases head.at? instant <;> simp [hZero]

/- The total of an event is exact if its values fit together. -/
theorem toInt_total
    {store : Store}
    {event : String}
    {instant : Instant}
    (hFits :
      (((store.seriesOf event).map fun one =>
        (one.amount instant).natAbs).sum : Nat) ≤
          Count.greatest) :
    (store.total event none instant).toInt =
      amountAt instant (store.seriesOf event) := by
  rw [← sum_valuesAt _ _ Int.natAbs rfl] at hFits
  rw [Store.total, sumFrom_none]
  exact (Count.toInt_total hFits).trans
    (sum_valuesAt _ _ id rfl)

/- Timely series have no larger amounts than magnitudes. -/
theorem sum_natAbs_amount_le
    {latest : Instant}
    {series : List Series}
    (hTimely : Every (Series.Timely latest) series) :
    (series.map fun one => (one.amount latest).natAbs).sum ≤
      magnitudeAt latest series := by
  apply List.sum_le_sum
  intro one hOne
  exact Series.natAbs_amount_le (hTimely.each one hOne)

/- A purge of the event adds nothing to its magnitude. -/
theorem magnitudeAt_survivors_le
    (instant : Instant)
    (series : List Series) :
    magnitudeAt instant (survivors series) ≤
      magnitudeAt instant series := by
  induction series with
  | nil => exact Nat.le_refl _
  | cons head series ih =>
      have hHead := head.magnitudeAt_purge_le instant
      unfold magnitudeAt survivors at ih ⊢
      cases hEmptied : Store.isEmptied head <;>
        simp only [List.filter_cons, hEmptied, Bool.not_true,
          Bool.not_false, Bool.false_eq_true, if_true, if_false,
          List.map_cons, List.sum_cons] <;>
        omega

end EventSeries

------------------------------------------------------------
-- Credits
------------------------------------------------------------

namespace Posting

variable {posting : Posting}
variable {series : List Series}

/-
  Everything held at the previous instant, by the reporting
  unit and by others, is part of the magnitude.
-/
theorem magnitude_held_le
    (posting : Posting)
    (hDistinct : Distinct series) :
    ((onUnit posting.unit series).share true
          posting.previous).natAbs +
        ((onUnit posting.unit series).share false
          posting.previous).natAbs +
        (Count.magnitude (posting.heldValues true series) +
          Count.magnitude (posting.heldValues false series)) ≤
      magnitudeAt posting.previous series := by
  rw [magnitudeAt, magnitude_heldValues, magnitude_heldValues,
    sum_eq_onUnit_add_others hDistinct _
      (Series.magnitudeAt_nil _ posting.unit),
    ← List.sum_map_add]
  apply Nat.add_le_add
  · exact Series.natAbs_shares_le _ _
  · apply List.sum_le_sum
    intro one _
    exact Series.natAbs_shares_le _ _

/- What an event holds is held by the last entries. -/
theorem amountAt_previous
    (hTimely : Every (Series.Timely posting.previous) series) :
    amountAt posting.previous series =
      (onUnit posting.unit series).share true posting.previous +
        (onUnit posting.unit series).share false
          posting.previous +
        (Count.exactTotal (posting.heldValues true series) +
          Count.exactTotal (posting.heldValues false series)) := by
  have hOwn := hTimely.onUnit
    (Series.timely_nil posting.previous posting.unit)
  have hOthers :
      (others posting.unit series).map
          (Series.amount posting.previous) =
        (others posting.unit series).map fun one =>
          one.share true posting.previous +
            one.share false posting.previous := by
    apply List.map_congr_left
    intro one hOne
    have hEach := hTimely.each one (mem_of_mem_others hOne)
    exact Series.amount_eq_shares hEach.ascending hEach.within
  rw [amountAt, sum_eq_onUnit_add_others hTimely.distinct _
      (Series.amount_nil _ posting.unit),
    Series.amount_eq_shares hOwn.ascending hOwn.within,
    hOthers, List.sum_map_add, exactTotal_heldValues,
    exactTotal_heldValues]

/-
  The amounts after a posting are the credit of the reporting
  unit and what the others hold in temporary entries.
-/
theorem sum_amounts_change
    {M : Type}
    [AddCommMonoid M]
    (hTimely : Every (Series.Timely posting.previous) series)
    (hLater : posting.previous < posting.instant)
    (mode : Mode)
    (value : Count)
    (f : Int → M)
    (hZero : f 0 = 0) :
    ((posting.change mode value series).map fun one =>
        f (one.amount posting.instant)).sum =
      f (posting.credit value series
          (onUnit posting.unit series) mode).toInt +
        ((posting.heldValues false series).map fun value =>
          f value.toInt).sum := by
  have hOthers :
      ((others posting.unit series).map fun one =>
          f ((one.carry posting.previous posting.instant).amount
            posting.instant)) =
        (others posting.unit series).map fun one =>
          f (one.share false posting.previous) := by
    apply List.map_congr_left
    intro one hOne
    have hEach := hTimely.each one (mem_of_mem_others hOne)
    rw [Series.amount_carry hEach hLater]
  rw [change_eq,
    sum_place (unit_settle _ _ _ _) hTimely.distinct
      (fun one => f (one.amount posting.instant)) hZero,
    hOthers, sum_heldValues _ _ _ f hZero, settle]
  congr 2
  exact Series.amount_push _ (posting.entry _)

/- The credit of a read, in exact numbers. -/
theorem toInt_credit_read
    {value : Count}
    (own : Series)
    (hFits :
      (value.toInt.natAbs +
          Count.magnitude (posting.heldValues false series) : Int) ≤
        Count.greatest) :
    (posting.credit value series own .read).toInt =
      value.toInt -
        Count.exactTotal (posting.heldValues false series) := by
  have hBound := Count.natAbs_exactTotal_le
    (posting.heldValues false series)
  have hHeld :
      (posting.held false series).toInt =
        Count.exactTotal (posting.heldValues false series) := by
    apply toInt_held
    omega
  rw [credit, Count.toInt_minus_of_natAbs, hHeld]
  rw [hHeld]
  omega

/- The credit of an accumulate, in exact numbers. -/
theorem toInt_credit_accumulate
    {value : Count}
    {own : Series}
    (hCurrent : own.Current posting.previous)
    (hFits :
      (value.toInt.natAbs +
          ((own.share true posting.previous).natAbs +
            (own.share false posting.previous).natAbs +
            Count.magnitude
              (posting.heldValues true series)) : Int) ≤
        Count.greatest) :
    (posting.credit value series own .accumulate).toInt =
      value.toInt +
        Count.exactTotal (posting.heldValues true series) +
        (own.share true posting.previous +
          own.share false posting.previous) := by
  have hBound := Count.natAbs_exactTotal_le
    (posting.heldValues true series)
  have hHeld :
      (posting.held true series).toInt =
        Count.exactTotal (posting.heldValues true series) := by
    apply toInt_held
    omega
  have hSum :
      (value.plus (posting.held true series)).toInt =
        value.toInt +
          Count.exactTotal (posting.heldValues true series) := by
    rw [Count.toInt_plus_of_natAbs, hHeld]
    rw [hHeld]
    omega
  have hCarried := Series.toInt_carried hCurrent
  rw [credit, Count.toInt_plus_of_natAbs, hSum, hCarried]
  rw [hSum, hCarried]
  omega

------------------------------------------------------------
-- The Register of an Event
------------------------------------------------------------

/- The total of an event after a value has been stored. -/
def Mode.result
    (value total : Int) : Mode → Int
| .read => value
| .accumulate => total + value

/- A value fits if no sum or difference it takes part in clips. -/
def Fitting
    (value : Int)
    (magnitude : Nat) : Prop :=
  value.natAbs + 2 * (magnitude : Int) ≤ Count.greatest

instance
    (value : Int)
    (magnitude : Nat) :
    Decidable (Fitting value magnitude) :=
  Int.decLe _ _

variable {value : Count}

/-
  The credit in exact numbers: the new total of the event less
  what the others keep in temporary entries.
-/
theorem toInt_credit
    (hTimely : Every (Series.Timely posting.previous) series)
    (mode : Mode)
    (hFits :
      Fitting value.toInt
        (magnitudeAt posting.previous series)) :
    (posting.credit value series
        (onUnit posting.unit series) mode).toInt =
      mode.result value.toInt
          (amountAt posting.previous series) -
        Count.exactTotal (posting.heldValues false series) := by
  have hHeld := posting.magnitude_held_le hTimely.distinct
  unfold Fitting at hFits
  cases mode with
  | read =>
      rw [toInt_credit_read, Mode.result]
      omega
  | accumulate =>
      have hOwn := hTimely.onUnit
        (Series.timely_nil posting.previous posting.unit)
      rw [toInt_credit_accumulate hOwn.current, Mode.result,
        amountAt_previous hTimely]
      · omega
      · omega

/- A posting sets the total of the event, or adds to it. -/
theorem amountAt_change
    (posting : Posting)
    (hTimely : Every (Series.Timely posting.previous) series)
    (hLater : posting.previous < posting.instant)
    (mode : Mode)
    (hFits :
      Fitting value.toInt
        (magnitudeAt posting.previous series)) :
    amountAt posting.instant (posting.change mode value series) =
      mode.result value.toInt
        (amountAt posting.previous series) := by
  have hSum :=
    sum_amounts_change hTimely hLater mode value id rfl
  have hCredit := toInt_credit hTimely mode hFits
  rw [Count.sum_map_id, id, hCredit] at hSum
  rw [amountAt]
  exact hSum.trans (Int.sub_add_cancel _ _)

/- The amounts after a posting still fit the range together. -/
theorem sum_natAbs_change_le
    (posting : Posting)
    (hTimely : Every (Series.Timely posting.previous) series)
    (hLater : posting.previous < posting.instant)
    (mode : Mode)
    (hFits :
      Fitting value.toInt
        (magnitudeAt posting.previous series)) :
    (((posting.change mode value series).map fun one =>
        (one.amount posting.instant).natAbs).sum : Nat) ≤
      Count.greatest := by
  have hHeld := posting.magnitude_held_le hTimely.distinct
  have hOwn := hTimely.onUnit
    (Series.timely_nil posting.previous posting.unit)
  have hTemporary := Count.natAbs_exactTotal_le
    (posting.heldValues false series)
  have hPermanent := Count.natAbs_exactTotal_le
    (posting.heldValues true series)
  unfold Fitting at hFits
  rw [sum_amounts_change hTimely hLater mode value Int.natAbs rfl,
    Count.sum_map_natAbs]
  -- What others hold may count twice after a read: it is carried
  -- forward, and it was taken from the credit.
  cases mode with
  | read =>
      rw [toInt_credit_read]
      · omega
      · omega
  | accumulate =>
      rw [toInt_credit_accumulate hOwn.current]
      · omega
      · omega

end Posting

------------------------------------------------------------
-- The Register of a Ledger
------------------------------------------------------------

namespace Ledger

/- The total of an event over all units, at the latest instant. -/
def holding
    (ledger : Ledger)
    (event : String) : Count :=
  ledger.store.total event none ledger.latest

/- The magnitude of all entries stamped with the latest instant. -/
def magnitude
    (ledger : Ledger)
    (event : String) : Nat :=
  magnitudeAt ledger.latest (ledger.store.seriesOf event)

/-
  The value of an event and twice the magnitude of what the
  ledger holds for it fit the range.
-/
def Fits
    (event : String)
    (ledger : Ledger) : Operation → Prop
| .store _ batch =>
    Posting.Fitting (batch.raw event) (ledger.magnitude event)
| .reset => True

instance
    (event : String)
    (ledger : Ledger) :
    (operation : Operation) →
      Decidable (ledger.Fits event operation)
| .store _ batch =>
    inferInstanceAs (Decidable
      (Posting.Fitting (batch.raw event) (ledger.magnitude event)))
| .reset => inferInstanceAs (Decidable True)

/- What an operation does to a register of an event. -/
def Operation.register
    (event : String)
    (total : Int) : Operation → Int
| .store mode batch => mode.result (batch.raw event) total
| .reset => total

variable {event : String}
variable {ledger : Ledger}

/- Opening a ledger adds nothing to the magnitude of an event. -/
theorem magnitudeAt_opened_le
    (ledger : Ledger)
    (mode : Posting.Mode)
    (event : String) :
    magnitudeAt ledger.latest
        ((ledger.opened mode).store.seriesOf event) ≤
      ledger.magnitude event := by
  rw [seriesOf_opened, magnitude]
  split
  · exact magnitudeAt_survivors_le _ _
  · exact Nat.le_refl _

/- An accumulate counts on from the total of the event. -/
theorem result_opened
    (ledger : Ledger)
    (mode : Posting.Mode)
    (event : String)
    (value : Int) :
    mode.result value
        (amountAt ledger.latest
          ((ledger.opened mode).store.seriesOf event)) =
      mode.result value
        (amountAt ledger.latest (ledger.store.seriesOf event)) := by
  cases mode <;> rfl

theorem toInt_holding
    (hTimely :
      Every (Series.Timely ledger.latest)
        (ledger.store.seriesOf event))
    (hFits : (ledger.magnitude event : Int) ≤ Count.greatest) :
    (ledger.holding event).toInt =
      amountAt ledger.latest (ledger.store.seriesOf event) := by
  have hAmounts := sum_natAbs_amount_le hTimely
  rw [holding, toInt_total]
  rw [magnitude] at hFits
  omega

/- Every operation acts on the total as on a register. -/
theorem holding_apply
    (hTimely :
      Every (Series.Timely ledger.latest)
        (ledger.store.seriesOf event))
    {operation : Operation}
    (hAdvances : ledger.Advances operation)
    (hFollows : ledger.Follows event operation)
    (hFits : ledger.Fits event operation) :
    ((ledger.apply operation).holding event).toInt =
      operation.register event (ledger.holding event).toInt := by
  cases operation with
  | reset => rfl
  | store mode batch =>
      rcases Batch.exists_valuesOf_eq hFollows with
        ⟨value, hValue, hRaw⟩
      rw [Fits, ← hRaw] at hFits
      have hHolding :
          (ledger.holding event).toInt =
            amountAt ledger.latest
              (ledger.store.seriesOf event) := by
        apply toInt_holding hTimely
        unfold Posting.Fitting at hFits
        omega
      have hOpened :=
        every_opened hTimely (fun _ hOne => hOne.purge) mode
      have hOpenedFits :
          Posting.Fitting value.toInt
            (magnitudeAt ledger.latest
              ((ledger.opened mode).store.seriesOf event)) := by
        have hLess := ledger.magnitudeAt_opened_le mode event
        unfold Posting.Fitting at hFits ⊢
        omega
      rw [holding, latest_apply_store, toInt_total,
        seriesOf_apply_once hValue]
      · rw [Operation.register, hHolding, ← hRaw,
          ← result_opened]
        exact Posting.amountAt_change (batch.posting ledger)
          hOpened hAdvances mode hOpenedFits
      · rw [seriesOf_apply_once hValue]
        exact Posting.sum_natAbs_change_le (batch.posting ledger)
          hOpened hAdvances mode hOpenedFits

/- A run of operations acts on the total as on a register. -/
theorem holding_replay
    {history : List Operation}
    (hAdvances : Along Advances ledger history)
    (hFollows : Along (Follows event) ledger history)
    (hFits : Along (Fits event) ledger history)
    (hTimely :
      Every (Series.Timely ledger.latest)
        (ledger.store.seriesOf event)) :
    ((ledger.replay history).holding event).toInt =
      history.foldl (Operation.register event)
        (ledger.holding event).toInt := by
  induction history generalizing ledger with
  | nil => rfl
  | cons operation rest ih =>
      have hStep :=
        holding_apply hTimely hAdvances.1 hFollows.1 hFits.1
      have hNext :=
        timely_apply hTimely hAdvances.1 hFollows.1
      rw [replay_cons, List.foldl_cons, ← hStep]
      exact ih hAdvances.2 hFollows.2 hFits.2 hNext

/-
  In any ledger that operations with advancing instants lead
  to, the total of an event that each of them lists once is a
  register. The next operation acts on it as such if its value
  fits, and the whole history did if every value has fitted.
-/
theorem holding_is_register
    (event : String)
    (history : List Operation)
    (hAdvances : Along Advances empty history)
    (hFollows : Along (Follows event) empty history) :
    (∀ operation,
      (empty.replay history).Advances operation →
      (empty.replay history).Follows event operation →
      (empty.replay history).Fits event operation →
      (((empty.replay history).apply operation).holding
          event).toInt =
        operation.register event
          ((empty.replay history).holding event).toInt) ∧
      (Along (Fits event) empty history →
        ((empty.replay history).holding event).toInt =
          history.foldl (Operation.register event) 0) := by
  have hTimely := timely_replay hAdvances hFollows
  constructor
  · intro operation hNext hListed hFits
    exact holding_apply hTimely hNext hListed hFits
  · intro hFits
    exact holding_replay hAdvances hFollows hFits (every_nil _)

/-
  Permanent and temporary readings of two units, with a reset
  in between and another event that comes and goes.
-/
theorem holding_is_register_migrating :
    let history : List Operation :=
      [.store .read ⟨0, 3, 1, [⟨"TOT_INS", 10⟩], true⟩,
        .store .accumulate ⟨1, 4, 2,
          [⟨"TOT_CYC", 7⟩, ⟨"TOT_INS", 15⟩], false⟩,
        .store .accumulate ⟨0, 3, 5, [⟨"TOT_INS", -4⟩], false⟩,
        .reset,
        .store .read ⟨1, 4, 6, [⟨"TOT_INS", 30⟩], true⟩]
    let next : Operation :=
      .store .accumulate ⟨0, 3, 9, [⟨"TOT_INS", 12⟩], false⟩
    Along Advances empty history ∧
      Along (Follows "TOT_INS") empty history ∧
      Along (Fits "TOT_INS") empty history ∧
      (empty.replay history).Advances next ∧
      (empty.replay history).Follows "TOT_INS" next ∧
      (empty.replay history).Fits "TOT_INS" next ∧
      ((empty.replay history).holding "TOT_INS").toInt = 30 ∧
      (((empty.replay history).apply next).holding
        "TOT_INS").toInt = 42 := by
  intro history next
  have hAdvances : Along Advances empty history := by decide
  have hFollows : Along (Follows "TOT_INS") empty history := by
    decide
  have hFits : Along (Fits "TOT_INS") empty history := by decide
  have hNext : (empty.replay history).Advances next := by decide
  have hListed :
      (empty.replay history).Follows "TOT_INS" next := by
    decide
  have hFitting : (empty.replay history).Fits "TOT_INS" next := by
    decide
  rcases holding_is_register "TOT_INS" history
    hAdvances hFollows with ⟨hStep, hRun⟩
  have hBefore :
      ((empty.replay history).holding "TOT_INS").toInt = 30 :=
    hRun hFits
  refine ⟨hAdvances, hFollows, hFits, hNext, hListed, hFitting,
    hBefore, ?_⟩
  rw [hStep next hNext hListed hFitting, hBefore]
  rfl

end Ledger

end CoreTally
