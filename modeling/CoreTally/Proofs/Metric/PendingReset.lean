import CoreTally.Proofs.Metric.Permanence
import CoreTally.Proofs.Metric.Representation

/-
  What a pending reset leaves behind. The read that carries it
  out keeps the permanent entries and adds its raw values, with
  nothing subtracted from them, since no unit holds temporary
  readings any more.

  Key definitions include:
    * `Batch.entry?`
    * `EventSeries.Settled`
    * `Ledger.Refreshed`

  Key theorems include:
    * `EventSeries.Settled.entries_read`
    * `Ledger.entries_refresh`
    * `Ledger.units_refresh`
    * `Ledger.contains_refresh_iff`
    * `Ledger.pending_reset_leaves_permanents`
-/

namespace CoreTally

open EventSeries

------------------------------------------------------------
-- Batches of Distinct Events
------------------------------------------------------------

namespace Batch

/-
  The entry that a batch brings for an event on a unit, under
  its raw value.
-/
def entry?
    (batch : Batch)
    (event : String)
    (unit : UnitId) : Option Entry :=
  if unit = batch.unit then
    (batch.readings.find? (·.event == event)).map fun reading =>
      ⟨batch.instant, reading.value, batch.permanent⟩
  else
    none

/- A batch of distinct events has at most one value for each. -/
theorem valuesOf_of_distinct
    {batch : Batch}
    (hDistinct : batch.events.Nodup)
    (event : String) :
    batch.valuesOf event =
      ((batch.readings.find? (·.event == event)).map
        Reading.value).toList := by
  unfold events at hDistinct
  unfold valuesOf
  generalize batch.readings = readings at hDistinct ⊢
  induction readings with
  | nil => rfl
  | cons head rest ih =>
      rcases List.nodup_cons.mp hDistinct with ⟨hHead, hRest⟩
      by_cases hEvent : head.event = event
      · have hNone : rest.filter (·.event == event) = [] := by
          rw [List.filter_eq_nil_iff]
          intro other hOther hSame
          apply hHead
          rw [hEvent, ← beq_iff_eq.mp hSame]
          exact List.mem_map_of_mem hOther
        rw [List.filter_cons_of_pos (by simpa using hEvent),
          List.find?_cons_of_pos (by simpa using hEvent), hNone]
        rfl
      · rw [List.filter_cons_of_neg (by simpa using hEvent),
          List.find?_cons_of_neg (by simpa using hEvent)]
        exact ih hRest

/- The events of a batch are those that are found in it. -/
theorem isSome_find?_iff
    (batch : Batch)
    (event : String) :
    (batch.readings.find? (·.event == event)).isSome = true ↔
      event ∈ batch.events := by
  rw [List.find?_isSome, events, List.mem_map]
  simp

end Batch

------------------------------------------------------------
-- Settled Series
------------------------------------------------------------

namespace EventSeries

/- All entries are permanent, as a purge leaves them. -/
def Settled (series : List Series) : Prop :=
  ∀ one ∈ series, ∀ entry ∈ one.entries, entry.permanent = true

variable {series : List Series}

theorem settled_survivors
    (hRetentive : ∀ one ∈ series, one.Retentive) :
    Settled (survivors series) := by
  intro one hOne entry hEntry
  rcases exists_of_mem_survivors hOne with ⟨old, hOld, rfl, _⟩
  exact Series.permanent_of_mem_purge (hRetentive old hOld) hEntry

theorem Settled.onUnit
    (hSettled : Settled series)
    (unit : UnitId) :
    ∀ entry ∈ (onUnit unit series).entries,
      entry.permanent = true := by
  intro entry hEntry
  by_cases hPresent : unit ∈ series.map Series.unit
  · exact hSettled _ (onUnit_mem hPresent) entry hEntry
  · rw [onUnit_of_notMem hPresent] at hEntry
    contradiction

/- Temporary readings hold nothing among settled series. -/
theorem Settled.heldValues
    (hSettled : Settled series)
    (posting : Posting) :
    posting.heldValues false series = [] := by
  unfold Posting.heldValues
  rw [List.filterMap_eq_nil_iff]
  intro one hOne
  split
  · rfl
  · cases hLive : one.liveAt? posting.previous with
    | none => rfl
    | some last =>
        have hLast : one.last? = some last :=
          (Option.filter_eq_some_iff.mp hLive).1
        have hPermanent :=
          hSettled one hOne last (List.mem_of_getLast? hLast)
        simp [hPermanent]

/- A read among settled series adds its raw value, no more. -/
theorem Settled.entries_read
    (hSettled : Settled series)
    (posting : Posting)
    (value : Count)
    (unit : UnitId) :
    (EventSeries.onUnit unit
        (posting.change .read value series)).entries =
      (EventSeries.onUnit unit series).entries ++
        if unit = posting.unit then
          [posting.entry value]
        else
          [] := by
  have hOwn := hSettled.onUnit unit
  have hCredit :
      posting.credit value series
        (EventSeries.onUnit unit series) .read = value := by
    rw [Posting.credit, Posting.held_eq, hSettled.heldValues]
    exact Count.minus_zero value
  rw [Posting.change_eq,
    Posting.onUnit_place (Posting.unit_settle _ _ _ _),
    Posting.moved, unit_onUnit]
  split
  · rw [Posting.settle, hCredit,
      Series.purge_of_entries_permanent hOwn]
    rfl
  · rw [Series.carry_of_entries_permanent _ _ hOwn,
      List.append_nil]

/- The units that survive a purge are those with permanent entries. -/
theorem units_survivors_eq_filter
    (hSound : Every Series.Sound series) :
    (survivors series).map Series.unit =
      (series.map Series.unit).filter fun unit =>
        (EventSeries.onUnit unit series).permanents ≠ [] := by
  rw [units_survivors, List.filter_map]
  congr 1
  apply List.filter_congr
  intro one hOne
  have hEntries :=
    Series.entries_purge (hSound.each one hOne).retentive
  rw [Function.comp_apply, onUnit_of_mem hSound.distinct hOne,
    Store.isEmptied, hEntries]
  cases one.permanents <;> simp

end EventSeries

------------------------------------------------------------
-- The Read after a Reset
------------------------------------------------------------

namespace Ledger

variable {ledger : Ledger}
variable {batch : Batch}

/- An event has its value posted to what the purge has left. -/
theorem seriesOf_refresh
    (hPending : ledger.pendingReset = true)
    (hDistinct : batch.events.Nodup)
    (event : String) :
    (ledger.apply (.store .read batch)).store.seriesOf event =
      match batch.readings.find? (·.event == event) with
      | none => survivors (ledger.store.seriesOf event)
      | some reading =>
          (batch.posting ledger).change .read reading.value
            (survivors (ledger.store.seriesOf event)) := by
  rw [seriesOf_apply, seriesOf_opened, if_pos ⟨rfl, hPending⟩,
    Batch.valuesOf_of_distinct hDistinct]
  cases batch.readings.find? (·.event == event) <;> rfl

/-
  A unit keeps its permanent entries of an event, and the one
  that reports gets its raw value behind them.
-/
theorem entries_refresh
    (hSound : ledger.store.Sound)
    (hPending : ledger.pendingReset = true)
    (hDistinct : batch.events.Nodup)
    (event : String)
    (unit : UnitId) :
    (onUnit unit
        ((ledger.apply (.store .read batch)).store.seriesOf
          event)).entries =
      ledger.permanentsOn event unit ++
        (batch.entry? event unit).toList := by
  have hSeries :
      Every Series.Retentive (ledger.store.seriesOf event) :=
    (hSound.every event).imp fun _ h => h.retentive
  have hRetentive :
      (onUnit unit (ledger.store.seriesOf event)).Retentive :=
    hSeries.onUnit List.Pairwise.nil
  have hKept :
      (onUnit unit
          (survivors (ledger.store.seriesOf event))).entries =
        ledger.permanentsOn event unit := by
    rw [onUnit_survivors hSeries.distinct, permanentsOn_eq,
      Series.entries_purge hRetentive]
  rw [seriesOf_refresh hPending hDistinct, Batch.entry?]
  cases batch.readings.find? (·.event == event) with
  | none => simp [hKept]
  | some reading =>
      simp only
      rw [(settled_survivors hSeries.each).entries_read, hKept]
      by_cases hUnit : unit = batch.unit <;> simp [hUnit]

/- Surviving units keep their order, and a new one comes last. -/
theorem units_refresh
    (hSound : ledger.store.Sound)
    (hPending : ledger.pendingReset = true)
    (hDistinct : batch.events.Nodup)
    (event : String) :
    ((ledger.apply (.store .read batch)).store.seriesOf
        event).map Series.unit =
      ((ledger.store.seriesOf event).map Series.unit).filter
          (fun unit => ledger.permanentsOn event unit ≠ []) ++
        if event ∈ batch.events ∧
            ledger.permanentsOn event batch.unit = [] then
          [batch.unit]
        else
          [] := by
  have hSeries := hSound.every event
  have hUnits := units_survivors_eq_filter hSeries
  simp only [← permanentsOn_eq] at hUnits
  have hReporter :
      batch.unit ∈
          (survivors (ledger.store.seriesOf event)).map
            Series.unit ↔
        ledger.permanentsOn event batch.unit ≠ [] := by
    rw [hUnits, List.mem_filter, decide_eq_true_eq]
    exact and_iff_right_of_imp mem_units_of_permanents
  have hListed := batch.isSome_find?_iff event
  rw [seriesOf_refresh hPending hDistinct, ← hUnits]
  cases hFind : batch.readings.find? (·.event == event) with
  | none =>
      rw [hFind] at hListed
      rw [if_neg fun h => by simpa using hListed.mpr h.1,
        List.append_nil]
  | some reading =>
      rw [hFind] at hListed
      have hEvent : event ∈ batch.events := hListed.mp rfl
      simp only
      rw [Posting.change_eq,
        Posting.units_place (Posting.unit_settle _ _ _ _),
        Batch.unit_posting]
      by_cases hNone : ledger.permanentsOn event batch.unit = []
      · rw [if_neg (mt hReporter.mp (not_not_intro hNone)),
          if_pos ⟨hEvent, hNone⟩]
      · rw [if_pos (hReporter.mpr hNone),
          if_neg fun h => hNone h.2, List.append_nil]

/-
  The purge evicts the units that lose their last series. Who
  takes part without any series, since it never reported a
  value, goes on doing so.
-/
theorem contains_refresh_iff
    (hReferenced : ledger.Referenced)
    (hFew : ledger.store.size < UInt32.size)
    (hPending : ledger.pendingReset = true)
    (hSome : batch.readings ≠ [])
    (hAfter : (ledger.apply (.store .read batch)).Referenced)
    (unit : UnitId) :
    let after := ledger.apply (.store .read batch)
    after.participants.contains unit = true ↔
      0 < after.store.seriesCount unit ∨
        ∃ node, ledger.participants.find? unit = some ⟨node, 0⟩ := by
  intro after
  have hOpened :
      ledger.opened .read =
        { ledger.purge with pendingReset := false } := by
    simp [opened, hPending]
  have hPosted :
      after.participants.contains unit = true ↔
        unit = batch.unit ∨
          ledger.purge.participants.contains unit = true := by
    rw [contains_apply_store_iff, hOpened]
  have hPurge := hReferenced.contains_purge_iff hFew unit
  have hLess :
      ledger.purge.store.seriesCount unit ≤
        after.store.seriesCount unit := by
    have hPosting :=
      seriesCount_le_foldl_post (batch.posting ledger) .read
        batch.readings
        ((ledger.opened .read).enlist batch.unit batch.node) unit
    rw [store_enlist, hOpened] at hPosting
    unfold after
    rw [apply_store, hOpened]
    exact hPosting
  constructor
  · intro hContains
    rcases hPosted.mp hContains with rfl | hPurged
    · left
      unfold after
      rw [apply_store]
      exact seriesCount_foldl_post_pos (batch.posting ledger)
        .read hSome _
    · rcases hPurge.mp hPurged with ⟨hOld, hNone | hLeft⟩
      · rcases Option.isSome_iff_exists.mp hOld with
          ⟨⟨node, refs⟩, hFound⟩
        have hRefs : refs = 0 := by
          simpa [hNone] using hReferenced.counted unit _ hFound
        exact .inr ⟨node, hRefs ▸ hFound⟩
      · exact .inl (Nat.lt_of_lt_of_le hLeft hLess)
  · rintro (hCount | ⟨node, hFound⟩)
    · exact hAfter.enlisted unit hCount
    · have hRefs := hReferenced.toNat_refs hFew hFound
      apply hPosted.mpr
      right
      apply hPurge.mpr
      refine ⟨?_, .inl hRefs.symm⟩
      rw [OrderedMap.contains, hFound]
      rfl

/-
  What a read makes of a ledger whose reset is pending. Of the
  entries of an event on a unit, the permanent ones are left,
  and the value that is read follows them as it is. There are
  series, events and participants where this leaves entries;
  who took part without series still does.
-/
structure Refreshed
    (before : Ledger)
    (batch : Batch)
    (after : Ledger) : Prop where
  series :
    ∀ event unit,
      let entries :=
        before.permanentsOn event unit ++
          (batch.entry? event unit).toList
      after.store.unitSeries? event unit =
        if entries = [] then none else some ⟨unit, entries⟩
  order :
    ∀ event,
      (after.store.seriesOf event).map Series.unit =
        ((before.store.seriesOf event).map Series.unit).filter
            (fun unit => before.permanentsOn event unit ≠ []) ++
          if event ∈ batch.events ∧
              before.permanentsOn event batch.unit = [] then
            [batch.unit]
          else
            []
  events :
    ∀ event,
      event ∈ after.store.names ↔
        ∃ unit, (after.store.unitSeries? event unit).isSome = true
  participants :
    ∀ unit,
      after.participants.contains unit = true ↔
        (∃ event,
          (after.store.unitSeries? event unit).isSome = true) ∨
        ∃ node,
          before.participants.find? unit = some ⟨node, 0⟩
  refs :
    ∀ unit participant,
      after.participants.find? unit = some participant →
        participant.refs.toNat = after.store.seriesCount unit
  settled : after.pendingReset = false
  latest : after.latest = batch.instant

/-
  In every reachable ledger with a pending reset, a read of
  distinct events leaves the permanent entries of all units and
  its own raw values, and nothing else.
-/
theorem pending_reset_leaves_permanents
    {history : List Operation}
    {batch : Batch}
    (hFew :
      (eventsOf (history ++ [.store .read batch])).toFinset.card <
        2 ^ 32)
    (hPending : (empty.replay history).pendingReset = true)
    (hSome : batch.readings ≠ [])
    (hDistinct : batch.events.Nodup) :
    let before := empty.replay history
    before.Refreshed batch (before.apply (.store .read batch)) := by
  intro before
  have hEvents :=
    card_eventsOf_append_le history [.store .read batch]
  have hReferenced : before.Referenced :=
    referenced_replay (Nat.lt_of_le_of_lt hEvents hFew)
  have hSize : before.store.size < UInt32.size :=
    Nat.lt_of_le_of_lt (size_replay_le history)
      (Nat.lt_of_le_of_lt hEvents hFew)
  have hSound : before.store.Sound := sound_replay history
  have hAfter := regular_replay hFew
  have hAfterReferenced := referenced_replay hFew
  have hAfterSound := sound_apply hSound (.store .read batch)
  rw [replay_append] at hAfter hAfterReferenced
  constructor
  · intro event unit entries
    have hEntries :=
      entries_refresh hSound hPending hDistinct event unit
    split
    · rename_i hNone
      rw [hAfterSound.unitSeries?_eq, hEntries, if_pos hNone]
    · rename_i hLeft
      exact Store.unitSeries?_of_entries hEntries hLeft
  · intro event
    exact units_refresh hSound hPending hDistinct event
  · intro event
    exact hAfterSound.mem_names_iff event
  · intro unit
    rw [← Store.seriesCount_pos_iff]
    exact contains_refresh_iff hReferenced hSize hPending hSome
      hAfterReferenced unit
  · exact hAfter.counted
  · exact pendingReset_apply_read before batch
  · exact latest_apply_store before .read batch

/-
  One unit loses all of its readings and gets a new series
  behind that of the other unit, whose entries are permanent. A
  third one has never reported a value.
-/
theorem pending_reset_leaves_permanents_of_two :
    let history : List Operation :=
      [.store .read
          ⟨1, 4, 1, [⟨"TOT_INS", 25⟩, ⟨"BR_MSP", 1⟩], false⟩,
        .store .read
          ⟨0, 3, 2, [⟨"TOT_INS", 40⟩, ⟨"TOT_CYC", 7⟩], true⟩,
        .store .accumulate ⟨2, 5, 3, [], false⟩]
    let batch : Batch := ⟨1, 4, 4, [⟨"TOT_INS", 30⟩], false⟩
    let before := empty.replay history
    let after := before.apply (.store .read batch)
    (eventsOf (history ++ [.store .read batch])).toFinset.card <
        2 ^ 32 ∧
      before.pendingReset = true ∧
      batch.events.Nodup ∧
      before.store.seriesOf "TOT_INS" =
        [⟨1, [⟨2, 25, false⟩]⟩, ⟨0, [⟨2, 15, true⟩]⟩] ∧
      after.store.seriesOf "TOT_INS" =
        [⟨0, [⟨2, 15, true⟩]⟩, ⟨1, [⟨4, 30, false⟩]⟩] ∧
      after.store.names = ["TOT_CYC", "TOT_INS"] ∧
      after.participants.toList =
        [(0, ⟨3, 2⟩), (1, ⟨4, 1⟩), (2, ⟨5, 0⟩)] ∧
      before.Refreshed batch after := by
  intro history batch before after
  have hFew :
      (eventsOf (history ++ [.store .read batch])).toFinset.card <
        2 ^ 32 := by
    decide
  have hPending : before.pendingReset = true := by decide
  have hDistinct : batch.events.Nodup := by decide
  refine ⟨hFew, hPending, hDistinct, by decide, by decide,
    by decide, by decide, ?_⟩
  exact pending_reset_leaves_permanents hFew hPending
    (by decide) hDistinct

end Ledger

end CoreTally
