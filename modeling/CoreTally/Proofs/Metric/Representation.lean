import CoreTally.Proofs.Metric.References
import CoreTally.Proofs.Metric.Timeliness

/-
  How a ledger represents readings. Whatever it is asked to do,
  it keeps no event without series and no series without
  entries, and only the last entry of a series may be temporary.
  With the reference counts this makes a ledger regular.

  Key definitions include:
    * `Series.Sound`
    * `Store.Sound`
    * `Ledger.Regular`
    * `Ledger.Attended`

  Key theorems include:
    * `EventSeries.sound_change`
    * `Ledger.sound_replay`
    * `Ledger.regular_replay`
    * `Ledger.Attended.apply`
-/

namespace CoreTally

------------------------------------------------------------
-- Sound Series
------------------------------------------------------------

namespace Series

/- There are entries, and only the last one may be temporary. -/
structure Sound (series : Series) : Prop where
  some : series.entries ≠ []
  retentive : series.Retentive

/- All entries in front of the last one are permanent. -/
theorem Retentive.permanent_of_mem_dropLast
    {series : Series}
    (hRetentive : series.Retentive)
    {entry : Entry}
    (hEntry : entry ∈ series.entries.dropLast) :
    entry.permanent = true := by
  unfold Retentive at hRetentive
  rcases List.eq_nil_or_concat series.entries with
    hNil | ⟨init, last, hEntries⟩
  · simp [hNil] at hEntry
  · rw [List.concat_eq_append] at hEntries
    rw [hEntries] at hRetentive hEntry
    rw [List.dropLast_concat] at hEntry
    exact (List.pairwise_append.mp hRetentive).2.2
      entry hEntry last (by simp)

theorem Sound.purge_push
    {series : Series}
    (hRetentive : series.Retentive)
    (entry : Entry) :
    (series.purge.push entry).Sound := by
  refine ⟨?_, hRetentive.purge_push entry⟩
  simp [push]

theorem Sound.carry
    {series : Series}
    (hSound : series.Sound)
    (previous next : Instant) :
    (series.carry previous next).Sound := by
  rcases series.carry_cases previous next with
    hSame | ⟨last, _, _, _, hPush⟩
  · rwa [hSame]
  · rw [hPush]
    exact Sound.purge_push hSound.retentive _

end Series

------------------------------------------------------------
-- The Series of an Event
------------------------------------------------------------

namespace EventSeries

variable {series : List Series}

/- The unit that reports has a series after a posting. -/
theorem mem_units_change
    (posting : Posting)
    (mode : Posting.Mode)
    (value : Count)
    (series : List Series) :
    posting.unit ∈
      (posting.change mode value series).map Series.unit := by
  rw [Posting.change_eq,
    Posting.units_place (Posting.unit_settle _ _ _ _)]
  split
  · assumption
  · simp

/- A posting keeps the series of an event sound. -/
theorem sound_change
    (hSound : Every Series.Sound series)
    (posting : Posting)
    (mode : Posting.Mode)
    (value : Count) :
    Every Series.Sound (posting.change mode value series) := by
  rw [Posting.change_eq]
  constructor
  · exact Posting.distinct_place
      (Posting.unit_settle _ _ _ _) hSound.distinct
  · intro one hOne
    rcases Posting.exists_of_mem_place hOne with
      ⟨old, hOld, rfl⟩ | rfl
    · have hBefore := hSound.each old hOld
      rw [Posting.moved]
      split
      · exact Series.Sound.purge_push hBefore.retentive _
      · exact hBefore.carry _ _
    · have hEmpty : Series.Retentive ⟨posting.unit, []⟩ :=
        List.Pairwise.nil
      exact Series.Sound.purge_push hEmpty _

/- What a purge of an event leaves is sound. -/
theorem sound_survivors
    (hSound : Every Series.Sound series) :
    Every Series.Sound (survivors series) := by
  refine ⟨hSound.distinct.survivors, ?_⟩
  intro one hOne
  rcases exists_of_mem_survivors hOne with
    ⟨old, hOld, rfl, hSome⟩
  exact ⟨hSome, (hSound.each old hOld).retentive.purge⟩

end EventSeries

------------------------------------------------------------
-- Sound Stores
------------------------------------------------------------

open EventSeries

namespace Store

/- Every stored event has series, all of them sound. -/
def Sound (store : Store) : Prop :=
  ∀ event series,
    store.series? event = some series →
      series ≠ [] ∧ Every Series.Sound series

theorem sound_empty :
    empty.Sound := by
  intro event series hFound
  simp [empty, series?] at hFound

variable {store : Store}

/- The series of any event are sound, stored or not. -/
theorem Sound.every
    (hSound : store.Sound)
    (event : String) :
    Every Series.Sound (store.seriesOf event) := by
  unfold seriesOf
  cases hFound : store.series? event with
  | none => exact every_nil _
  | some series => exact (hSound event series hFound).2

theorem Sound.put
    (hSound : store.Sound)
    (event : String)
    {series : List Series}
    (hSome : series ≠ [])
    (hSeries : Every Series.Sound series) :
    (store.put event series).Sound := by
  intro other found hFound
  unfold series? Store.put at hFound
  rw [OrderedMap.find?_insert] at hFound
  split at hFound
  · cases hFound
    exact ⟨hSome, hSeries⟩
  · exact hSound other found hFound

theorem Sound.purge
    (hSound : store.Sound) :
    store.purge.Sound := by
  intro event series hFound
  unfold series? Store.purge at hFound
  rw [OrderedMap.find?_filterMap,
    Option.bind_eq_some_iff] at hFound
  rcases hFound with ⟨old, hOld, hKept⟩
  rw [purgeSeries?_eq] at hKept
  split at hKept
  · contradiction
  · rename_i hSome
    cases hKept
    exact ⟨hSome, sound_survivors (hSound event old hOld).2⟩

/- Sound stores have an event both or not at all. -/
theorem Sound.series?_eq
    (hSound : store.Sound)
    {other : Store}
    (hOther : other.Sound)
    {event : String}
    (hSeries : store.seriesOf event = other.seriesOf event) :
    store.series? event = other.series? event := by
  unfold Store.seriesOf at hSeries
  cases hHere : store.series? event with
  | none =>
      cases hThere : other.series? event with
      | none => rfl
      | some series =>
          simp only [hHere, hThere, Option.getD_none,
            Option.getD_some] at hSeries
          exact absurd hSeries.symm (hOther event series hThere).1
  | some series =>
      cases hThere : other.series? event with
      | none =>
          simp only [hHere, hThere, Option.getD_none,
            Option.getD_some] at hSeries
          exact absurd hSeries (hSound event series hHere).1
      | some _ =>
          simp only [hHere, hThere, Option.getD_some] at hSeries
          rw [hSeries]

/- Sound stores with the same series are the same. -/
theorem Sound.ext
    (hSound : store.Sound)
    {other : Store}
    (hOther : other.Sound)
    (hSeries :
      ∀ event, store.seriesOf event = other.seriesOf event) :
    store = other := by
  have hEvents : store.events = other.events :=
    OrderedMap.ext_find? fun event =>
      hSound.series?_eq hOther (hSeries event)
  cases store
  cases other
  exact congrArg Store.mk hEvents

/- A unit is found with an event if it has entries there. -/
theorem Sound.unitSeries?_eq
    (hSound : store.Sound)
    (event : String)
    (unit : UnitId) :
    store.unitSeries? event unit =
      if (onUnit unit (store.seriesOf event)).entries = [] then
        none
      else
        some (onUnit unit (store.seriesOf event)) := by
  cases hFound : store.unitSeries? event unit with
  | none =>
      have hAbsent :
          unit ∉ (store.seriesOf event).map Series.unit := by
        rw [← isSome_unitSeries?_iff, hFound]
        simp
      rw [onUnit_of_notMem hAbsent, if_pos rfl]
  | some series =>
      have hOwn :
          onUnit unit (store.seriesOf event) = series := by
        unfold onUnit
        unfold unitSeries? at hFound
        rw [hFound, Option.getD_some]
      have hListed : series ∈ store.seriesOf event :=
        List.mem_of_find?_eq_some hFound
      have hSeries := (hSound.every event).each series hListed
      rw [hOwn, if_neg hSeries.some]

/- An event is stored if some unit is found with it. -/
theorem Sound.mem_names_iff
    (hSound : store.Sound)
    (event : String) :
    event ∈ store.names ↔
      ∃ unit, (store.unitSeries? event unit).isSome = true := by
  simp only [isSome_unitSeries?_iff]
  constructor
  · intro hEvent
    rcases OrderedMap.mem_keys_iff.mp hEvent with
      ⟨series, hFound⟩
    rcases List.exists_mem_of_ne_nil series
      (hSound event series hFound).1 with ⟨one, hOne⟩
    refine ⟨one.unit, List.mem_map_of_mem ?_⟩
    unfold seriesOf series?
    rwa [hFound]
  · rintro ⟨unit, hUnit⟩
    apply OrderedMap.mem_keys_iff.mpr
    unfold seriesOf series? at hUnit
    cases hFound : store.events.find? event with
    | none => simp [hFound] at hUnit
    | some series => exact ⟨series, rfl⟩

end Store

------------------------------------------------------------
-- Sound Ledgers
------------------------------------------------------------

namespace Ledger

variable {ledger : Ledger}

theorem sound_foldl_post
    (hSound : ledger.store.Sound)
    (posting : Posting)
    (mode : Posting.Mode)
    (readings : List Reading) :
    (readings.foldl (post posting.unit (posting.change mode))
      ledger).store.Sound := by
  induction readings generalizing ledger with
  | nil => exact hSound
  | cons reading readings ih =>
      apply ih
      have hUnit :=
        mem_units_change posting mode reading.value
          (ledger.store.seriesOf reading.event)
      apply hSound.put
      · intro hNil
        rw [hNil] at hUnit
        simp at hUnit
      · exact sound_change (hSound.every reading.event)
          posting mode reading.value

theorem sound_opened
    (hSound : ledger.store.Sound)
    (mode : Posting.Mode) :
    (ledger.opened mode).store.Sound := by
  unfold opened
  cases mode with
  | read =>
      simp only
      split
      · exact hSound.purge
      · exact hSound
  | accumulate => exact hSound

theorem sound_apply
    (hSound : ledger.store.Sound)
    (operation : Operation) :
    (ledger.apply operation).store.Sound := by
  cases operation with
  | reset => exact hSound
  | store mode batch =>
      rw [apply_store]
      apply sound_foldl_post _ (batch.posting ledger)
      rw [store_enlist]
      exact sound_opened hSound mode

/- Along every history, what is stored is sound. -/
theorem sound_replay
    (history : List Operation) :
    (empty.replay history).store.Sound := by
  induction history using List.reverseRecOn with
  | nil => exact Store.sound_empty
  | append_singleton history operation ih =>
      rw [replay_append]
      exact sound_apply ih operation

------------------------------------------------------------
-- Regular Ledgers
------------------------------------------------------------

/-
  The representation of readings in a ledger. Stored events
  have series, of different units and with entries, of which
  all but the last one are permanent. Units with a series are
  participants, and participants count the events in which
  their units have one.
-/
structure Regular (ledger : Ledger) : Prop where
  listed :
    ∀ event series,
      ledger.store.series? event = some series →
        series ≠ [] ∧ (series.map Series.unit).Nodup
  retained :
    ∀ event, ∀ series ∈ ledger.store.seriesOf event,
      series.entries ≠ [] ∧
        ∀ entry ∈ series.entries.dropLast,
          entry.permanent = true
  enlisted :
    ∀ event unit,
      (ledger.store.unitSeries? event unit).isSome = true →
        ledger.participants.contains unit = true
  counted :
    ∀ unit participant,
      ledger.participants.find? unit = some participant →
        participant.refs.toNat = ledger.store.seriesCount unit

theorem Referenced.regular
    (hReferenced : ledger.Referenced)
    (hFew : ledger.store.size < UInt32.size)
    (hSound : ledger.store.Sound) :
    ledger.Regular := by
  constructor
  · intro event series hFound
    have hSeries := hSound event series hFound
    exact ⟨hSeries.1, hSeries.2.distinct⟩
  · intro event series hSeries
    have hEach := (hSound.every event).each series hSeries
    exact ⟨hEach.some, fun entry hEntry =>
      hEach.retentive.permanent_of_mem_dropLast hEntry⟩
  · intro event unit hFound
    apply hReferenced.enlisted
    exact Store.seriesCount_pos_iff.mpr ⟨event, hFound⟩
  · intro unit participant hFound
    exact hReferenced.toNat_refs hFew hFound

/- Along every history of not too many events, a ledger is regular. -/
theorem regular_replay
    {history : List Operation}
    (hFew : (eventsOf history).toFinset.card < UInt32.size) :
    (empty.replay history).Regular :=
  (referenced_replay hFew).regular
    (Nat.lt_of_le_of_lt (size_replay_le history) hFew)
    (sound_replay history)

------------------------------------------------------------
-- Attended Ledgers
------------------------------------------------------------

/- Every participant has a series. -/
def Attended (ledger : Ledger) : Prop :=
  ∀ unit, ledger.participants.contains unit = true →
    0 < ledger.store.seriesCount unit

/- What is stored brings some value. -/
def Operation.Brings : Operation → Prop
| .store _ batch => batch.readings ≠ []
| .reset => True

theorem attended_empty :
    empty.Attended := by
  intro unit hContains
  simp [empty, OrderedMap.contains] at hContains

/- A purge leaves participants only where it leaves series. -/
theorem Attended.opened
    (hAttended : ledger.Attended)
    (hReferenced : ledger.Referenced)
    (hFew : ledger.store.size < UInt32.size)
    (mode : Posting.Mode) :
    (ledger.opened mode).Attended := by
  unfold Ledger.opened
  cases mode with
  | read =>
      simp only
      split
      · intro unit hContains
        rcases (hReferenced.contains_purge_iff hFew unit).mp
          hContains with ⟨hOld, hNone | hLeft⟩
        · have hSome := hAttended unit hOld
          omega
        · exact hLeft
      · exact hAttended
  | accumulate => exact hAttended

/- What is stored brings a series for the unit that it adds. -/
theorem attended_apply_store
    {mode : Posting.Mode}
    (hOpened : (ledger.opened mode).Attended)
    {batch : Batch}
    (hReadings : batch.readings ≠ []) :
    (ledger.apply (.store mode batch)).Attended := by
  intro unit hContains
  rw [apply_store]
  rcases (contains_apply_store_iff _ _ _ _).mp hContains with
    rfl | hOld
  · exact seriesCount_foldl_post_pos (batch.posting ledger) mode
      hReadings _
  · have hLess :=
      seriesCount_le_foldl_post (batch.posting ledger) mode
        batch.readings
        ((ledger.opened mode).enlist batch.unit batch.node) unit
    rw [store_enlist] at hLess
    exact Nat.lt_of_lt_of_le (hOpened unit hOld) hLess

/-
  An operation that brings some value for every participant it
  adds leaves none without series.
-/
theorem Attended.apply
    (hAttended : ledger.Attended)
    (hReferenced : ledger.Referenced)
    (hFew : ledger.store.size < UInt32.size)
    {operation : Operation}
    (hBrings : operation.Brings) :
    (ledger.apply operation).Attended := by
  cases operation with
  | reset => exact hAttended
  | store mode batch =>
      exact attended_apply_store
        (hAttended.opened hReferenced hFew mode) hBrings

end Ledger

end CoreTally
