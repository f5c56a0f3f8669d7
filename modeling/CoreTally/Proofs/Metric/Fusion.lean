import CoreTally.Proofs.Metric.Absorption
import Mathlib.Algebra.Order.BigOperators.Group.List
import Mathlib.Algebra.Order.Group.Nat

/-
  Two accumulates in a row on one unit, of which the first one
  brings temporary readings. One accumulate of the sums leaves
  the same ledger, so it does not matter how often deltas are
  taken as long as the unit stays the same.

  Key definitions include:
    * `EventSeries.lastMagnitude`
    * `Batch.Sums`

  Key theorems include:
    * `Posting.heldValues_resume_permanent`
    * `Posting.accumulate_fuses`
    * `Ledger.accumulates_fuse`
-/

namespace CoreTally

open EventSeries

------------------------------------------------------------
-- Sums of Four
------------------------------------------------------------

/- A value may be added before other ones or behind them. -/
theorem Count.plus_plus_plus
    {first second sum held carried : Count}
    (hSum : sum.toInt = first.toInt + second.toInt)
    (hFits :
      (first.toInt.natAbs + second.toInt.natAbs +
          (held.toInt.natAbs + carried.toInt.natAbs) : Int) ≤
        greatest) :
    second.plus ((first.plus held).plus carried) =
      (sum.plus held).plus carried := by
  have hFirst :
      (first.plus held).toInt = first.toInt + held.toInt :=
    toInt_plus_of_natAbs (by omega)
  have hDraft :
      ((first.plus held).plus carried).toInt =
        first.toInt + held.toInt + carried.toInt := by
    rw [toInt_plus_of_natAbs (by omega), hFirst]
  have hWhole :
      (sum.plus held).toInt = sum.toInt + held.toInt :=
    toInt_plus_of_natAbs (by omega)
  apply Int64.toInt_inj.mp
  calc (second.plus ((first.plus held).plus carried)).toInt
      _ = second.toInt + ((first.plus held).plus carried).toInt :=
        toInt_plus_of_natAbs (by omega)
      _ = (sum.plus held).toInt + carried.toInt := by omega
      _ = ((sum.plus held).plus carried).toInt :=
        (toInt_plus_of_natAbs (by omega)).symm

------------------------------------------------------------
-- Last Values
------------------------------------------------------------

/- The magnitude of the last value of a series. -/
def Series.lastMagnitude (series : Series) : Nat :=
  match series.last? with
  | none => 0
  | some last => last.value.toInt.natAbs

/- The magnitude of the last values of the series of an event. -/
def EventSeries.lastMagnitude (series : List Series) : Nat :=
  (series.map Series.lastMagnitude).sum

namespace Series

variable {previous middle : Instant}

/- What a series holds at an instant is its last value. -/
theorem natAbs_share_le
    (permanent : Bool)
    (instant : Instant)
    (series : Series) :
    (series.share permanent instant).natAbs ≤
      series.lastMagnitude := by
  rw [share, liveAt?, lastMagnitude]
  cases series.last? with
  | none => exact Nat.le_refl _
  | some last =>
      rw [Option.filter_some]
      by_cases hLive : last.instant = instant <;>
        by_cases hKind : last.permanent = permanent <;>
          simp [hLive, hKind]

/- So is what a reading that counts on takes over. -/
theorem natAbs_carried_le
    (previous : Instant)
    (series : Series) :
    (series.carried previous).toInt.natAbs ≤
      series.lastMagnitude := by
  rw [carried, lastMagnitude]
  cases series.last? with
  | none => exact Nat.le_refl _
  | some last =>
      simp only
      split
      · exact Nat.le_refl _
      · exact Nat.zero_le _

/- A reading that counts on takes over a temporary value. -/
theorem carried_push_temporary
    (previous : Instant)
    (series : Series)
    {entry : Entry}
    (hTemporary : entry.permanent = false) :
    (series.push entry).carried previous = entry.value := by
  rw [push, carried, last?_concat]
  exact if_pos (.inl hTemporary)

/- A permanent value of the past is not held at a later instant. -/
theorem heldAt?_carry_permanent
    {series : Series}
    (hWithin : series.Within previous)
    (hLater : previous < middle) :
    heldAt? true middle (series.carry previous middle) = none := by
  have hPast :
      ∀ last : Entry, last ∈ series.entries →
        last.instant ≠ middle := by
    intro last hLast
    exact UInt64.ne_of_lt
      (UInt64.lt_of_le_of_lt (hWithin last hLast) hLater)
  cases series.ending with
  | empty unit => rfl
  | permanent unit init last h =>
      rw [carry_of_permanent _ _ _ _ _ h, heldAt?,
        liveAt?_concat, if_neg (hPast last (by simp))]
  | temporary unit init last h =>
      rw [carry_of_temporary _ _ _ _ _ h, heldAt?]
      by_cases hLive : last.instant = previous
      · rw [if_pos hLive, liveAt?_concat, if_pos rfl]
        exact if_neg (by simp [h])
      · rw [if_neg hLive, liveAt?_concat,
          if_neg (hPast last (by simp))]

end Series

------------------------------------------------------------
-- Two Accumulates in a Row
------------------------------------------------------------

namespace Posting

variable {posting : Posting}
variable {middle : Instant}
variable {series : List Series}

/- Permanent values of the past are not held any more. -/
theorem heldValues_resume_permanent
    (hWithin :
      ∀ one ∈ series, one.Within posting.previous)
    (hMiddle : posting.previous < middle)
    {own : Series → Series}
    (hOwn : ∀ one, (own one).unit = one.unit) :
    (posting.resume middle).heldValues true
        ((posting.draft middle).place own series) = [] := by
  have hOthers :
      others posting.unit
          ((posting.draft middle).place own series) =
        (others posting.unit series).map
          (Series.carry posting.previous middle) :=
    @others_place (posting.draft middle) own hOwn series
  rw [heldValues_eq_others, unit_resume, hOthers,
    List.filterMap_map, List.filterMap_eq_nil_iff]
  intro one hOne
  exact Series.heldAt?_carry_permanent
    (hWithin one (mem_of_mem_others hOne)) hMiddle

/-
  What an accumulate adds to a delta are last values, at most one
  of each series.
-/
theorem magnitude_added_le
    (posting : Posting)
    (hDistinct : Distinct series) :
    Count.magnitude (posting.heldValues true series) +
        ((onUnit posting.unit series).carried
          posting.previous).toInt.natAbs ≤
      lastMagnitude series := by
  have hEmpty : Series.lastMagnitude ⟨posting.unit, []⟩ = 0 := rfl
  rw [lastMagnitude, magnitude_heldValues,
    sum_eq_onUnit_add_others hDistinct _ hEmpty, Nat.add_comm]
  apply Nat.add_le_add (Series.natAbs_carried_le _ _)
  apply List.sum_le_sum
  intro one _
  exact Series.natAbs_share_le true posting.previous one

/-
  The second accumulate adds its delta to the credit of the first
  one and nothing else. All values are exact, so the credit is
  that of the sum of both deltas.
-/
theorem accumulate_fuses
    (hDistinct : Distinct series)
    (hWithin :
      ∀ one ∈ series, one.Within posting.previous)
    (hMiddle : posting.previous < middle)
    {first second sum : Count}
    (hSum : sum.toInt = first.toInt + second.toInt)
    (hFits :
      (first.toInt.natAbs + second.toInt.natAbs +
          lastMagnitude series : Int) ≤
        Count.greatest) :
    (posting.resume middle).change .accumulate second
        ((posting.draft middle).change .accumulate first series) =
      posting.change .accumulate sum series := by
  have hAdded := posting.magnitude_added_le hDistinct
  have hExact :
      (posting.held true series).toInt =
        Count.exactTotal (posting.heldValues true series) :=
    toInt_held (by omega)
  have hBound :=
    Count.natAbs_exactTotal_le (posting.heldValues true series)
  rw [change_eq, change_eq, change_eq,
    place_place hWithin hMiddle (unit_settle _ _ _ _)
      (fun _ => rfl)]
  apply place_congr hDistinct
  have hHeld :
      (posting.resume middle).held true
          ((posting.draft middle).place
            ((posting.draft middle).settle .accumulate first
              series) series) = 0 := by
    rw [held_eq, heldValues_resume_permanent hWithin hMiddle
      (unit_settle _ _ _ _)]
    rfl
  have hCredit :
      second.plus
          ((first.plus (posting.held true series)).plus
            ((onUnit posting.unit series).carried
              posting.previous)) =
        (sum.plus (posting.held true series)).plus
          ((onUnit posting.unit series).carried
            posting.previous) :=
    Count.plus_plus_plus hSum (by omega)
  rw [settle, settle, Series.purge_push_temporary _ rfl, credit,
    hHeld, Count.plus_zero, Series.carried_push_temporary _ _ rfl]
  exact congrArg
    (fun credit =>
      (onUnit posting.unit series).purge.push
        (posting.entry credit)) hCredit

end Posting

------------------------------------------------------------
-- Sums of Batches
------------------------------------------------------------

/-
  A batch has the sums of the values of two other ones, event by
  event, and comes when the second of them would.
-/
structure Batch.Sums (whole draft batch : Batch) : Prop where
  unit : whole.unit = batch.unit
  node : whole.node = batch.node
  instant : whole.instant = batch.instant
  permanent : whole.permanent = batch.permanent
  once : whole.events.Nodup
  events : ∀ event, event ∈ whole.events ↔ event ∈ batch.events
  sum : ∀ event, whole.raw event = draft.raw event + batch.raw event

------------------------------------------------------------
-- Fusion
------------------------------------------------------------

namespace Ledger

variable {ledger : Ledger}
variable {draft batch whole : Batch}

/- The sums are posted as the second values would be. -/
theorem posting_sums
    (hSums : whole.Sums draft batch) :
    whole.posting ledger = batch.posting ledger := by
  rw [Batch.posting, Batch.posting, hSums.unit, hSums.instant,
    hSums.permanent]

/- The series of every event are those of the sum. -/
theorem seriesOf_accumulate_fuses
    (hOrderly :
      ∀ event,
        Every (Series.Orderly ledger.latest)
          (ledger.store.seriesOf event))
    (hDrafts : draft.Drafts batch)
    (hSums : whole.Sums draft batch)
    (hMiddle : ledger.latest < draft.instant)
    (hFits :
      ∀ event ∈ batch.events,
        ((draft.raw event).natAbs + (batch.raw event).natAbs +
            lastMagnitude (ledger.store.seriesOf event) : Int) ≤
          Count.greatest)
    (event : String) :
    ((ledger.apply (.store .accumulate draft)).apply
        (.store .accumulate batch)).store.seriesOf event =
      (ledger.apply (.store .accumulate whole)).store.seriesOf
        event := by
  by_cases hListed : event ∈ batch.events
  · rcases Batch.exists_value hDrafts.draftOnce
        ((hDrafts.events event).mpr hListed) with ⟨first, hFirst⟩
    rcases Batch.exists_value hDrafts.once hListed with
      ⟨second, hSecond⟩
    rcases Batch.exists_value hSums.once
        ((hSums.events event).mpr hListed) with ⟨sum, hSum⟩
    have hValues := hSums.sum event
    have hEventFits := hFits event hListed
    have hSeries := hOrderly event
    simp only [Batch.raw, hFirst, hSecond, hSum,
      Count.exactTotal_cons, Count.exactTotal_nil,
      Int.add_zero] at hValues hEventFits
    rw [seriesOf_apply_once hSecond, opened_apply,
      seriesOf_apply_once hFirst, seriesOf_apply_once hSum,
      posting_draft hDrafts, posting_resume, posting_sums hSums]
    exact Posting.accumulate_fuses hSeries.distinct
      (fun one hOne => (hSeries.each one hOne).within) hMiddle
      hValues hEventFits
  · have hNone := Batch.valuesOf_of_notListed hListed
    have hDraftNone := Batch.valuesOf_of_notListed
      (mt (hDrafts.events event).mp hListed)
    have hSumNone := Batch.valuesOf_of_notListed
      (mt (hSums.events event).mp hListed)
    simp only [seriesOf_apply, opened_apply, hNone, hDraftNone,
      hSumNone, List.foldl_nil]

/-
  In any ledger that operations with advancing instants lead to,
  an accumulate of temporary values and the accumulate behind it
  leave the same ledger as one accumulate of the sums of their
  values, if both are for one unit and list the same events. The
  values of every event and the last values of its series must
  fit the range together.
-/
theorem accumulates_fuse
    {history : List Operation}
    (hAdvances : Along Advances empty history)
    {draft batch whole : Batch}
    (hDrafts : draft.Drafts batch)
    (hSums : whole.Sums draft batch)
    (hMiddle : (empty.replay history).latest < draft.instant)
    (hFits :
      ∀ event ∈ batch.events,
        ((draft.raw event).natAbs + (batch.raw event).natAbs +
            lastMagnitude
              ((empty.replay history).store.seriesOf event) : Int) ≤
          Count.greatest) :
    let ledger := empty.replay history
    (ledger.apply (.store .accumulate draft)).apply
        (.store .accumulate batch) =
      ledger.apply (.store .accumulate whole) := by
  intro ledger
  have hSound : ledger.store.Sound := sound_replay history
  have hStore :
      ((ledger.apply (.store .accumulate draft)).apply
          (.store .accumulate batch)).store =
        (ledger.apply (.store .accumulate whole)).store := by
    apply (sound_apply (sound_apply hSound _) _).ext
    · exact sound_apply hSound _
    · exact seriesOf_accumulate_fuses
        (fun event => orderly_replay event hAdvances)
        hDrafts hSums hMiddle hFits
  have hParticipants :
      ((ledger.apply (.store .accumulate draft)).apply
          (.store .accumulate batch)).participants =
        (ledger.apply (.store .accumulate whole)).participants := by
    rw [participants_apply_apply .accumulate hDrafts]
    exact (participants_apply_congr ledger .accumulate hSums.unit
      hSums.node hSums.once hDrafts.once hSums.events).symm
  rw [Ledger.mk.injEq, latest_apply_store, latest_apply_store,
    pendingReset_apply_accumulate, pendingReset_apply_accumulate]
  exact ⟨hStore, hParticipants, hSums.instant.symm, rfl⟩

/-
  The unit has a permanent reading that is live, besides that of
  another unit, and a stale one of another event. The first
  accumulate takes both live values in, and the second one none.
-/
theorem accumulates_fuse_on_permanents :
    let history : List Operation :=
      [.store .read
          ⟨1, 4, 1, [⟨"TOT_INS", 10⟩, ⟨"BR_MSP", 1⟩], true⟩,
        .store .accumulate ⟨1, 4, 2, [⟨"TOT_INS", 5⟩], true⟩,
        .store .read ⟨0, 3, 3, [⟨"TOT_INS", 40⟩], true⟩]
    let ledger := empty.replay history
    let draft : Batch :=
      ⟨1, 4, 4, [⟨"TOT_INS", 7⟩, ⟨"BR_MSP", 2⟩], false⟩
    let batch : Batch :=
      ⟨1, 4, 6, [⟨"BR_MSP", 9⟩, ⟨"TOT_INS", -3⟩], true⟩
    let whole : Batch :=
      ⟨1, 4, 6, [⟨"TOT_INS", 4⟩, ⟨"BR_MSP", 11⟩], true⟩
    let drafted := ledger.apply (.store .accumulate draft)
    let fused := ledger.apply (.store .accumulate whole)
    Along Advances empty history ∧
      draft.Drafts batch ∧
      whole.Sums draft batch ∧
      ledger.latest < draft.instant ∧
      (∀ event ∈ batch.events,
        ((draft.raw event).natAbs + (batch.raw event).natAbs +
            lastMagnitude (ledger.store.seriesOf event) : Int) ≤
          Count.greatest) ∧
      ledger.store.seriesOf "TOT_INS" =
        [⟨1, [⟨1, 10, true⟩, ⟨2, 15, true⟩]⟩,
          ⟨0, [⟨3, 40, true⟩]⟩] ∧
      drafted.store.seriesOf "TOT_INS" =
        [⟨1, [⟨1, 10, true⟩, ⟨2, 15, true⟩, ⟨4, 47, false⟩]⟩,
          ⟨0, [⟨3, 40, true⟩]⟩] ∧
      fused.store.seriesOf "TOT_INS" =
        [⟨1, [⟨1, 10, true⟩, ⟨2, 15, true⟩, ⟨6, 44, true⟩]⟩,
          ⟨0, [⟨3, 40, true⟩]⟩] ∧
      drafted.apply (.store .accumulate batch) = fused := by
  intro history ledger draft batch whole drafted fused
  have hAdvances : Along Advances empty history := by decide
  have hMiddle : ledger.latest < draft.instant := by decide
  have hDrafts : draft.Drafts batch := by
    refine ⟨rfl, rfl, rfl, by decide, by decide, ?_⟩
    intro event
    simp [Batch.events, draft, batch, or_comm]
  have hSums : whole.Sums draft batch := by
    refine ⟨rfl, rfl, rfl, rfl, by decide, ?_, ?_⟩
    · intro event
      simp [Batch.events, whole, batch, or_comm]
    · intro event
      by_cases hFirst : "TOT_INS" = event
      · subst hFirst
        decide
      · by_cases hSecond : "BR_MSP" = event
        · subst hSecond
          decide
        · simp [Batch.raw, Batch.valuesOf, whole, draft, batch,
            hFirst, hSecond]
  have hFits :
      ∀ event ∈ batch.events,
        ((draft.raw event).natAbs + (batch.raw event).natAbs +
            lastMagnitude (ledger.store.seriesOf event) : Int) ≤
          Count.greatest := by
    decide
  exact ⟨hAdvances, hDrafts, hSums, hMiddle, hFits, by decide,
    by decide, by decide,
    accumulates_fuse hAdvances hDrafts hSums hMiddle hFits⟩

end Ledger

end CoreTally
