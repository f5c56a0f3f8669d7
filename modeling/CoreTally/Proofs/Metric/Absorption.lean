import CoreTally.Proofs.Metric.EventIndependence

/-
  Two calls in a row on one unit, of which the first one brings
  temporary readings. A read takes the place of the first read,
  so that the ledger is the same as without it. What other units
  hold is carried through the instant in between and is neither
  lost nor subtracted twice.

  Key definitions include:
    * `Posting.draft`
    * `Posting.resume`
    * `Ledger.lacks`

  Key theorems include:
    * `Series.carry_carry`
    * `Posting.place_place`
    * `Posting.heldValues_resume`
    * `Ledger.participants_foldl_post`
    * `Ledger.read_absorbs_temporary_read`
-/

namespace CoreTally

open EventSeries

------------------------------------------------------------
-- An Instant in Between
------------------------------------------------------------

namespace Series

/- A temporary entry is what a purge drops. -/
theorem purge_push_temporary
    (series : Series)
    {entry : Entry}
    (hTemporary : entry.permanent = false) :
    (series.push entry).purge = series :=
  purge_of_temporary series.unit series.entries entry hTemporary

variable {previous middle : Instant}
variable {series : Series}

/-
  A series is carried forward in two steps as in one. A stale
  entry stays behind, since it is not of the instant in between.
-/
theorem carry_carry
    (hWithin : series.Within previous)
    (hLater : previous < middle)
    (next : Instant) :
    (series.carry previous middle).carry middle next =
      series.carry previous next := by
  cases series.ending with
  | empty unit => rfl
  | permanent unit init last h =>
      rw [carry_of_permanent _ _ _ _ _ h,
        carry_of_permanent _ _ _ _ _ h,
        carry_of_permanent _ _ _ _ _ h]
  | temporary unit init last h =>
      rw [carry_of_temporary _ _ _ _ _ h,
        carry_of_temporary _ _ _ _ _ h]
      by_cases hLive : last.instant = previous
      · have hCarried :=
          carry_of_temporary unit init { last with instant := middle }
            middle next h
        rw [if_pos hLive, if_pos hLive, hCarried, if_pos rfl]
      · have hLast : last.instant ≤ previous :=
          hWithin last (by simp)
        have hPast : last.instant ≠ middle :=
          UInt64.ne_of_lt (UInt64.lt_of_le_of_lt hLast hLater)
        rw [if_neg hLive, if_neg hLive,
          carry_of_temporary _ _ _ _ _ h, if_neg hPast]

/- The value of a last entry that is live at an instant. -/
def heldAt?
    (permanent : Bool)
    (instant : Instant)
    (series : Series) : Option Count :=
  match series.liveAt? instant with
  | none => none
  | some last =>
      if last.permanent = permanent then some last.value else none

/- Carrying forward keeps the value of a temporary entry. -/
theorem heldAt?_carry
    (hWithin : series.Within previous)
    (hLater : previous < middle) :
    heldAt? false middle (series.carry previous middle) =
      heldAt? false previous series := by
  cases series.ending with
  | empty unit => rfl
  | permanent unit init last h =>
      have hNone (instant : Instant) :
          heldAt? false instant ⟨unit, init ++ [last]⟩ = none := by
        rw [heldAt?, liveAt?_concat]
        by_cases hLive : last.instant = instant <;> simp [hLive, h]
      rw [carry_of_permanent _ _ _ _ _ h, hNone, hNone]
  | temporary unit init last h =>
      rw [carry_of_temporary _ _ _ _ _ h, heldAt?, heldAt?,
        liveAt?_concat]
      by_cases hLive : last.instant = previous
      · rw [if_pos hLive, if_pos hLive, liveAt?_concat,
          if_pos rfl]
      · have hLast : last.instant ≤ previous :=
          hWithin last (by simp)
        have hPast : last.instant ≠ middle :=
          UInt64.ne_of_lt (UInt64.lt_of_le_of_lt hLast hLater)
        rw [if_neg hLive, if_neg hLive, liveAt?_concat,
          if_neg hPast]

end Series

------------------------------------------------------------
-- Two Postings in a Row
------------------------------------------------------------

namespace Posting

/- A posting that is made early, and for the time being. -/
def draft
    (posting : Posting)
    (middle : Instant) : Posting :=
  { posting with instant := middle, permanent := false }

/- A posting that goes on from an instant in between. -/
def resume
    (posting : Posting)
    (middle : Instant) : Posting :=
  { posting with previous := middle }

@[simp] theorem unit_draft
    (posting : Posting)
    (middle : Instant) :
    (posting.draft middle).unit = posting.unit := rfl

@[simp] theorem unit_resume
    (posting : Posting)
    (middle : Instant) :
    (posting.resume middle).unit = posting.unit := rfl

variable {posting : Posting}
variable {middle : Instant}
variable {series : List Series}

/- What other units hold is read off their series. -/
theorem heldValues_eq_others
    (posting : Posting)
    (permanent : Bool)
    (series : List Series) :
    posting.heldValues permanent series =
      (others posting.unit series).filterMap
        (Series.heldAt? permanent posting.previous) := by
  induction series with
  | nil => rfl
  | cons head series ih =>
      rw [heldValues, List.filterMap_cons, ← heldValues,
        others_cons, ih]
      by_cases hHead : head.unit = posting.unit
      · rw [if_pos hHead, if_pos hHead]
      · rw [if_neg hHead, if_neg hHead, List.filterMap_cons]
        rfl

/- What other units hold is still held at the instant in between. -/
theorem heldValues_resume
    (hWithin :
      ∀ one ∈ series, one.Within posting.previous)
    (hMiddle : posting.previous < middle)
    {own : Series → Series}
    (hOwn : ∀ one, (own one).unit = one.unit) :
    (posting.resume middle).heldValues false
        ((posting.draft middle).place own series) =
      posting.heldValues false series := by
  have hOthers :
      others posting.unit
          ((posting.draft middle).place own series) =
        (others posting.unit series).map
          (Series.carry posting.previous middle) :=
    @others_place (posting.draft middle) own hOwn series
  rw [heldValues_eq_others, heldValues_eq_others, unit_resume,
    hOthers, List.filterMap_map]
  apply List.filterMap_congr
  intro one hOne
  exact Series.heldAt?_carry
    (hWithin one (mem_of_mem_others hOne)) hMiddle

/-
  Two changes of the reporting unit's series, the other series
  being carried through the instant in between, make one change.
-/
theorem place_place
    (hWithin :
      ∀ one ∈ series, one.Within posting.previous)
    (hMiddle : posting.previous < middle)
    {first second own : Series → Series}
    (hFirst : ∀ one, (first one).unit = one.unit)
    (hOwn : ∀ one, second (first one) = own one) :
    (posting.resume middle).place second
        ((posting.draft middle).place first series) =
      posting.place own series := by
  have hMoved :
      (series.map ((posting.draft middle).moved first)).map
          ((posting.resume middle).moved second) =
        series.map (posting.moved own) := by
    rw [List.map_map]
    apply List.map_congr_left
    intro one hOne
    unfold moved
    by_cases hUnit : one.unit = posting.unit
    · simp [hUnit, hFirst, hOwn]
    · simp only [unit_draft, unit_resume, hUnit, if_false,
        Function.comp_apply, Series.unit_carry]
      exact Series.carry_carry (hWithin one hOne) hMiddle _
  have hNew :
      (posting.resume middle).moved second
          (first ⟨posting.unit, []⟩) =
        own ⟨posting.unit, []⟩ := by
    have hUnit := hFirst ⟨posting.unit, []⟩
    rw [moved, unit_resume, if_pos hUnit, hOwn]
  have hPresent :
      posting.unit ∈
        ((posting.draft middle).place first series).map
          Series.unit := by
    rw [units_place hFirst, unit_draft]
    split
    · assumption
    · simp
  rw [place_eq (posting.resume middle), unit_resume,
    if_pos hPresent, place_eq (posting.draft middle),
    place_eq posting, unit_draft]
  split
  · exact hMoved
  · rw [List.map_append, hMoved, List.map_singleton, hNew]

/-
  A read takes the place of a temporary one. Its credit is the
  same, since the same values are subtracted from it.
-/
theorem read_absorbs
    (hWithin :
      ∀ one ∈ series, one.Within posting.previous)
    (hMiddle : posting.previous < middle)
    (draft value : Count) :
    (posting.resume middle).change .read value
        ((posting.draft middle).change .read draft series) =
      posting.change .read value series := by
  rw [change_eq, change_eq, change_eq]
  apply place_place hWithin hMiddle (unit_settle _ _ _ _)
  intro one
  have hHeld :
      (posting.resume middle).held false
          ((posting.draft middle).place
            ((posting.draft middle).settle .read draft series)
            series) =
        posting.held false series := by
    rw [held_eq, held_eq,
      heldValues_resume hWithin hMiddle (unit_settle _ _ _ _)]
  rw [settle, settle, settle, credit, credit, hHeld,
    Series.purge_push_temporary _ rfl]
  rfl

end Posting

------------------------------------------------------------
-- Drafts
------------------------------------------------------------

namespace Batch

/- A listed event has one value, if no event is listed twice. -/
theorem exists_value
    {batch : Batch}
    (hDistinct : batch.events.Nodup)
    {event : String}
    (hListed : event ∈ batch.events) :
    ∃ value, batch.valuesOf event = [value] := by
  have hFound := (batch.isSome_find?_iff event).mpr hListed
  rcases Option.isSome_iff_exists.mp hFound with
    ⟨reading, hReading⟩
  refine ⟨reading.value, ?_⟩
  rw [valuesOf_of_distinct hDistinct, hReading]
  rfl

/- An event that is not listed has no values. -/
theorem valuesOf_of_notListed
    {batch : Batch}
    {event : String}
    (hAbsent : event ∉ batch.events) :
    batch.valuesOf event = [] := by
  rw [valuesOf, List.map_eq_nil_iff, List.filter_eq_nil_iff]
  intro reading hReading hEvent
  apply hAbsent
  rw [← beq_iff_eq.mp hEvent]
  exact List.mem_map_of_mem hReading

/-
  A batch of temporary values for the same unit and the same
  events as another one, each event being listed once.
-/
structure Drafts (draft batch : Batch) : Prop where
  unit : draft.unit = batch.unit
  node : draft.node = batch.node
  temporary : draft.permanent = false
  draftOnce : draft.events.Nodup
  once : batch.events.Nodup
  events : ∀ event, event ∈ draft.events ↔ event ∈ batch.events

end Batch

------------------------------------------------------------
-- Participants
------------------------------------------------------------

namespace Ledger

/- A unit has no series of an event yet. -/
def lacks
    (unit : UnitId)
    (ledger : Ledger)
    (event : String) : Bool :=
  !(ledger.store.seriesOf event).any (·.unit == unit)

/-
  Values of distinct events add a series to the count of the
  unit for every event that it lacks, whatever the values are.
-/
theorem participants_foldl_post
    (unit : UnitId)
    (change : Count → List Series → List Series)
    {readings : List Reading}
    (hDistinct : (readings.map Reading.event).Nodup)
    (ledger : Ledger) :
    (readings.foldl (post unit change) ledger).participants =
      (retain · unit)^[
        (readings.map Reading.event).countP (ledger.lacks unit)]
          ledger.participants := by
  induction readings generalizing ledger with
  | nil => rfl
  | cons reading readings ih =>
      rcases List.nodup_cons.mp hDistinct with ⟨hHead, hRest⟩
      have hLacks :
          (readings.map Reading.event).countP
              ((post unit change ledger reading).lacks unit) =
            (readings.map Reading.event).countP
              (ledger.lacks unit) := by
        apply List.countP_congr
        intro event hEvent
        have hOther : event ≠ reading.event :=
          ne_of_mem_of_not_mem hEvent hHead
        rw [lacks, lacks, post, Store.seriesOf_put,
          if_neg hOther]
      rw [List.foldl_cons, ih hRest, hLacks, List.map_cons,
        List.countP_cons, lacks, post]
      cases (ledger.store.seriesOf reading.event).any
        (·.unit == unit) with
      | true => rfl
      | false => rfl

/- After a batch is stored, its unit lacks none of its events. -/
theorem lacks_apply
    (ledger : Ledger)
    (mode : Posting.Mode)
    {batch : Batch}
    (hDistinct : batch.events.Nodup)
    {event : String}
    (hListed : event ∈ batch.events) :
    (ledger.apply (.store mode batch)).lacks batch.unit event =
      false := by
  rcases Batch.exists_value hDistinct hListed with ⟨value, hValue⟩
  have hUnit := mem_units_change (batch.posting ledger) mode
    value ((ledger.opened mode).store.seriesOf event)
  rw [lacks, seriesOf_apply_once hValue]
  simpa using hUnit

end Ledger

------------------------------------------------------------
-- Absorption
------------------------------------------------------------

namespace Ledger

variable {ledger : Ledger}
variable {draft batch : Batch}

/- A draft is posted early, and the other batch goes on from it. -/
theorem posting_draft
    (hDrafts : draft.Drafts batch) :
    draft.posting ledger =
      (batch.posting ledger).draft draft.instant := by
  rw [Batch.posting, hDrafts.unit, hDrafts.temporary]
  rfl

theorem posting_resume
    (mode : Posting.Mode) :
    batch.posting (ledger.apply (.store mode draft)) =
      (batch.posting ledger).resume draft.instant := by
  rw [Batch.posting, latest_apply_store]
  rfl

/- A call finds the ledger as the one before it has left it. -/
theorem opened_apply
    (ledger : Ledger)
    (mode : Posting.Mode)
    (batch : Batch) :
    (ledger.apply (.store mode batch)).opened mode =
      ledger.apply (.store mode batch) := by
  cases mode with
  | read =>
      exact opened_of_notPending
        (pendingReset_apply_read ledger batch)
  | accumulate =>
      have hPending := pendingReset_apply_accumulate ledger batch
      rw [opened, requestReset, ← hPending]

/- The series of every event are those of the second read. -/
theorem seriesOf_read_absorbs
    (hOrderly :
      ∀ event,
        Every (Series.Orderly ledger.latest)
          (ledger.store.seriesOf event))
    (hDrafts : draft.Drafts batch)
    (hMiddle : ledger.latest < draft.instant)
    (event : String) :
    ((ledger.apply (.store .read draft)).apply
        (.store .read batch)).store.seriesOf event =
      (ledger.apply (.store .read batch)).store.seriesOf event := by
  have hOpened :=
    every_opened (hOrderly event) (fun _ hOne => hOne.purge) .read
  by_cases hListed : event ∈ batch.events
  · rcases Batch.exists_value hDrafts.once hListed with
      ⟨value, hValue⟩
    rcases Batch.exists_value hDrafts.draftOnce
        ((hDrafts.events event).mpr hListed) with ⟨old, hOld⟩
    rw [seriesOf_apply_once hValue, opened_apply,
      seriesOf_apply_once hOld, seriesOf_apply_once hValue,
      posting_draft hDrafts, posting_resume]
    exact Posting.read_absorbs
      (fun one hOne => (hOpened.each one hOne).within) hMiddle _ _
  · have hNone := Batch.valuesOf_of_notListed hListed
    have hDraftNone := Batch.valuesOf_of_notListed
      (mt (hDrafts.events event).mp hListed)
    simp only [seriesOf_apply, opened_apply, hNone,
      hDraftNone, List.foldl_nil]

/- The participants depend on which events are listed only. -/
theorem participants_apply_congr
    (ledger : Ledger)
    (mode : Posting.Mode)
    {batch other : Batch}
    (hUnit : batch.unit = other.unit)
    (hNode : batch.node = other.node)
    (hOnce : batch.events.Nodup)
    (hOtherOnce : other.events.Nodup)
    (hEvents : ∀ event, event ∈ batch.events ↔ event ∈ other.events) :
    (ledger.apply (.store mode batch)).participants =
      (ledger.apply (.store mode other)).participants := by
  have hPerm : batch.events.Perm other.events :=
    (List.perm_ext_iff_of_nodup hOnce hOtherOnce).mpr hEvents
  unfold Batch.events at hPerm
  rw [apply_store, apply_store]
  simp only
  rw [participants_foldl_post _ _ hOnce,
    participants_foldl_post _ _ hOtherOnce, hUnit, hNode,
    hPerm.countP_eq]

/- The first call adds all series that the second one would add. -/
theorem participants_apply_apply
    (mode : Posting.Mode)
    (hDrafts : draft.Drafts batch) :
    ((ledger.apply (.store mode draft)).apply
        (.store mode batch)).participants =
      (ledger.apply (.store mode batch)).participants := by
  have hSome :
      (ledger.apply (.store mode draft)).participants.contains
        batch.unit = true :=
    (contains_apply_store_iff _ _ _ _).mpr
      (.inl hDrafts.unit.symm)
  have hEnlisted :
      (ledger.apply (.store mode draft)).enlist batch.unit
          batch.node =
        ledger.apply (.store mode draft) :=
    if_pos hSome
  have hNone :
      batch.events.countP
          ((ledger.apply (.store mode draft)).lacks batch.unit) =
        0 := by
    rw [List.countP_eq_zero]
    intro event hListed
    rw [← hDrafts.unit, lacks_apply ledger mode
      hDrafts.draftOnce ((hDrafts.events event).mpr hListed)]
    exact Bool.false_ne_true
  unfold Batch.events at hNone
  rw [apply_store, opened_apply, hEnlisted]
  simp only
  rw [participants_foldl_post _ _ hDrafts.once, hNone,
    Function.iterate_zero_apply]
  exact participants_apply_congr ledger mode hDrafts.unit
    hDrafts.node hDrafts.draftOnce hDrafts.once hDrafts.events

/-
  In any ledger that operations with advancing instants lead
  to, a read makes the read of temporary values before it
  vanish, if both are for one unit and list the same events.
  The ledger is the same as after the second read alone,
  whatever values clip and whatever instant comes next.
-/
theorem read_absorbs_temporary_read
    {history : List Operation}
    (hAdvances : Along Advances empty history)
    {draft batch : Batch}
    (hDrafts : draft.Drafts batch)
    (hMiddle : (empty.replay history).latest < draft.instant) :
    let ledger := empty.replay history
    (ledger.apply (.store .read draft)).apply (.store .read batch) =
      ledger.apply (.store .read batch) := by
  intro ledger
  have hSound : ledger.store.Sound := sound_replay history
  have hStore :
      ((ledger.apply (.store .read draft)).apply
          (.store .read batch)).store =
        (ledger.apply (.store .read batch)).store := by
    apply (sound_apply (sound_apply hSound _) _).ext
    · exact sound_apply hSound _
    · exact seriesOf_read_absorbs
        (fun event => orderly_replay event hAdvances)
        hDrafts hMiddle
  have hParticipants :
      ((ledger.apply (.store .read draft)).apply
          (.store .read batch)).participants =
        (ledger.apply (.store .read batch)).participants :=
    participants_apply_apply .read hDrafts
  rw [Ledger.mk.injEq, latest_apply_store, latest_apply_store,
    pendingReset_apply_read, pendingReset_apply_read]
  exact ⟨hStore, hParticipants, rfl, rfl⟩

/-
  Two other units hold live readings, one of them permanent, and
  one has a stale reading of another event as well. The read
  that vanishes clips, since there is no smaller count.
-/
theorem read_absorbs_temporary_read_clipped :
    let history : List Operation :=
      [.store .read
          ⟨0, 3, 1, [⟨"TOT_INS", 10⟩, ⟨"BR_MSP", 1⟩], false⟩,
        .store .read ⟨1, 4, 2, [⟨"TOT_INS", 25⟩], false⟩,
        .store .read ⟨2, 5, 3, [⟨"TOT_INS", 40⟩], true⟩]
    let ledger := empty.replay history
    let draft : Batch :=
      ⟨1, 4, 4,
        [⟨"TOT_INS", -9223372036854775808⟩, ⟨"BR_MSP", 2⟩], false⟩
    let batch : Batch :=
      ⟨1, 4, 6, [⟨"BR_MSP", 9⟩, ⟨"TOT_INS", 50⟩], true⟩
    let drafted := ledger.apply (.store .read draft)
    Along Advances empty history ∧
      draft.Drafts batch ∧
      ledger.latest < draft.instant ∧
      drafted.store.seriesOf "TOT_INS" =
        [⟨0, [⟨4, 10, false⟩]⟩,
          ⟨1, [⟨4, -9223372036854775808, false⟩]⟩,
          ⟨2, [⟨3, 15, true⟩]⟩] ∧
      (ledger.apply (.store .read batch)).store.seriesOf
          "TOT_INS" =
        [⟨0, [⟨6, 10, false⟩]⟩, ⟨1, [⟨6, 40, true⟩]⟩,
          ⟨2, [⟨3, 15, true⟩]⟩] ∧
      drafted.apply (.store .read batch) =
        ledger.apply (.store .read batch) := by
  intro history ledger draft batch drafted
  have hAdvances : Along Advances empty history := by decide
  have hMiddle : ledger.latest < draft.instant := by decide
  have hDrafts : draft.Drafts batch := by
    refine ⟨rfl, rfl, rfl, by decide, by decide, ?_⟩
    intro event
    simp [Batch.events, draft, batch, or_comm]
  exact ⟨hAdvances, hDrafts, hMiddle, by decide, by decide,
    read_absorbs_temporary_read hAdvances hDrafts hMiddle⟩

end Ledger

end CoreTally
