import CoreTally.Proofs.Metric.History
import Mathlib.Logic.Function.Iterate
import Mathlib.Data.Finset.Card

/-
  The participants of a ledger count the series that are
  stored for their units. A unit with a stored series is a
  participant, and a purge evicts it with its last series only.

  Key definitions include:
    * `Store.seriesCount`
    * `Participant.released`
    * `Ledger.Referenced`
    * `Ledger.eventsOf`

  Key theorems include:
    * `Store.seriesCount_purge`
    * `Store.seriesCount_pos_iff`
    * `Ledger.find?_foldl_release`
    * `Ledger.Referenced.contains_purge_iff`
    * `Ledger.Referenced.apply`
    * `Ledger.referenced_replay`
-/

namespace CoreTally

open EventSeries

------------------------------------------------------------
-- Counting Series
------------------------------------------------------------

namespace Store

/- The number of events in which a unit has a series. -/
def seriesCount
    (store : Store)
    (unit : UnitId) : Nat :=
  store.events.toList.countP fun pair =>
    unit ∈ pair.2.map Series.unit

@[simp] theorem seriesCount_empty
    (unit : UnitId) :
    empty.seriesCount unit = 0 := rfl

/- Replacing the series of one event changes its part only. -/
theorem seriesCount_put
    (store : Store)
    (event : String)
    (series : List Series)
    (unit : UnitId) :
    (store.put event series).seriesCount unit +
        (if unit ∈ (store.seriesOf event).map Series.unit then
          1
        else
          0) =
      store.seriesCount unit +
        if unit ∈ series.map Series.unit then 1 else 0 := by
  have hCount :=
    OrderedMap.countP_insert store.events event series
      fun pair => decide (unit ∈ pair.2.map Series.unit)
  unfold seriesCount put seriesOf series?
  cases hOld : store.events.find? event with
  | none => simpa [hOld] using hCount
  | some old => simpa [hOld] using hCount

/- No unit has more series than there are events. -/
theorem seriesCount_le_size
    (store : Store)
    (unit : UnitId) :
    store.seriesCount unit ≤ store.size :=
  List.countP_le_length

/- A unit with a series for some event has one at least. -/
theorem seriesCount_pos
    {store : Store}
    {event : String}
    {unit : UnitId}
    (hUnit : unit ∈ (store.seriesOf event).map Series.unit) :
    0 < store.seriesCount unit := by
  unfold seriesOf series? at hUnit
  cases hFound : store.events.find? event with
  | none => simp [hFound] at hUnit
  | some series =>
      apply List.countP_pos_iff.mpr
      refine ⟨(event, series),
        OrderedMap.find?_eq_some_iff.mp hFound, ?_⟩
      simpa [hFound] using hUnit

/- A unit has a series for an event if it is found there. -/
theorem isSome_unitSeries?_iff
    {store : Store}
    {event : String}
    {unit : UnitId} :
    (store.unitSeries? event unit).isSome = true ↔
      unit ∈ (store.seriesOf event).map Series.unit := by
  unfold unitSeries?
  rw [List.find?_isSome, List.mem_map]
  simp

/- The series of an event are listed with it. -/
theorem seriesOf_eq_of_mem
    {store : Store}
    {pair : String × List Series}
    (hMem : pair ∈ store.events.toList) :
    store.seriesOf pair.1 = pair.2 := by
  unfold seriesOf series?
  rw [OrderedMap.find?_eq_some_iff.mpr hMem]
  rfl

/- The units with series are those that are found somewhere. -/
theorem seriesCount_pos_iff
    {store : Store}
    {unit : UnitId} :
    0 < store.seriesCount unit ↔
      ∃ event, (store.unitSeries? event unit).isSome = true := by
  constructor
  · intro hCount
    rcases List.countP_pos_iff.mp hCount with
      ⟨pair, hPair, hUnit⟩
    refine ⟨pair.1, isSome_unitSeries?_iff.mpr ?_⟩
    rw [seriesOf_eq_of_mem hPair]
    exact of_decide_eq_true hUnit
  · rintro ⟨event, hFound⟩
    exact seriesCount_pos (isSome_unitSeries?_iff.mp hFound)

/-
  A unit without two series for one event is left with one, or
  loses one, where it had one.
-/
theorem survivors_add_emptied
    {series : List Series}
    (hDistinct : Distinct series)
    (unit : UnitId) :
    (if unit ∈ (survivors series).map Series.unit then 1 else 0) +
        ((series.filter isEmptied).map Series.unit).count unit =
      if unit ∈ series.map Series.unit then 1 else 0 := by
  have hKept := hDistinct.survivors
  rw [Distinct, units_survivors] at hKept
  rw [units_survivors, ← List.Nodup.count hKept,
    ← List.Nodup.count hDistinct]
  clear hDistinct hKept
  induction series with
  | nil => rfl
  | cons head series ih =>
      rw [List.map_cons, List.count_cons, ← ih]
      cases hEmptied : isEmptied head with
      | true =>
          rw [List.filter_cons_of_neg (by simp [hEmptied]),
            List.filter_cons_of_pos hEmptied, List.map_cons,
            List.count_cons]
          omega
      | false =>
          rw [List.filter_cons_of_pos (by simp [hEmptied]),
            List.filter_cons_of_neg (by simp [hEmptied]),
            List.map_cons, List.count_cons]
          omega

/- The pair of an event after a purge, if it is left. -/
theorem countP_mapValues?_cons
    (unit : UnitId)
    (pair : String × List Series)
    (pairs : List (String × List Series)) :
    ((Ascending.mapValues? (fun _ series => purgeSeries? series)
        (pair :: pairs)).countP fun pair =>
      decide (unit ∈ pair.2.map Series.unit)) =
      ((Ascending.mapValues? (fun _ series => purgeSeries? series)
        pairs).countP fun pair =>
          decide (unit ∈ pair.2.map Series.unit)) +
        if unit ∈ (survivors pair.2).map Series.unit then
          1
        else
          0 := by
  unfold Ascending.mapValues?
  simp only [List.filterMap_cons, purgeSeries?_eq]
  by_cases hNone : survivors pair.2 = []
  · simp [hNone]
  · simp only [if_neg hNone, Option.map_some, List.countP_cons,
      decide_eq_true_eq]

/- A purge takes one from a count for every emptied series. -/
theorem seriesCount_purge
    {store : Store}
    (hDistinct : ∀ event, Distinct (store.seriesOf event))
    (unit : UnitId) :
    store.purge.seriesCount unit + store.emptied.count unit =
      store.seriesCount unit := by
  have hPairs :
      ∀ pair ∈ store.events.toList, Distinct pair.2 := by
    intro pair hPair
    rw [← seriesOf_eq_of_mem hPair]
    exact hDistinct pair.1
  unfold seriesCount emptied purge OrderedMap.filterMap
  simp only
  generalize store.events.toList = pairs at hPairs
  induction pairs with
  | nil => rfl
  | cons pair pairs ih =>
      have hRest := ih fun other hOther =>
        hPairs other (List.mem_cons_of_mem _ hOther)
      have hHead :=
        survivors_add_emptied (hPairs pair (by simp)) unit
      rw [countP_mapValues?_cons, List.flatMap_cons,
        List.count_append, List.countP_cons]
      simp only [decide_eq_true_eq]
      omega

end Store

------------------------------------------------------------
-- Releasing
------------------------------------------------------------

namespace Participant

/- A participant with one series less, if it has more than one. -/
def released (participant : Participant) : Option Participant :=
  if participant.refs ≤ 1 then
    none
  else
    some { participant with refs := participant.refs - 1 }

/- A participant after some releases. -/
def releasedTimes
    (times : Nat)
    (participant : Option Participant) : Option Participant :=
  (Option.bind · released)^[times] participant

@[simp] theorem releasedTimes_zero
    (participant : Option Participant) :
    releasedTimes 0 participant = participant := rfl

theorem releasedTimes_succ
    (times : Nat)
    (participant : Option Participant) :
    releasedTimes (times + 1) participant =
      releasedTimes times (participant.bind released) := rfl

@[simp] theorem releasedTimes_none
    (times : Nat) :
    releasedTimes times none = none := by
  induction times with
  | zero => rfl
  | succ times ih => exact ih

/- The last series is released with the participant. -/
theorem released_of_le
    {participant : Participant}
    (hLast : participant.refs.toNat ≤ 1) :
    participant.released = none := by
  apply if_pos
  rw [UInt32.le_iff_toNat_le]
  exact hLast

/- Any other series is released alone. -/
theorem released_of_lt
    {participant : Participant}
    (hMany : 1 < participant.refs.toNat) :
    participant.released =
      some { participant with
        refs := UInt32.ofNat (participant.refs.toNat - 1) } := by
  have hOne : ¬ participant.refs ≤ 1 := by
    rw [UInt32.le_iff_toNat_le]
    exact Nat.not_le.mpr hMany
  have hLess : (1 : UInt32) ≤ participant.refs := by
    rw [UInt32.le_iff_toNat_le]
    exact Nat.le_of_lt hMany
  rw [released, if_neg hOne,
    ← UInt32.ofNat_toNat (x := participant.refs - 1),
    UInt32.toNat_sub_of_le _ _ hLess]
  rfl

/- A smaller number of series is a number that fits. -/
theorem toNat_ofNat_refs_sub
    (participant : Participant)
    (times : Nat) :
    (UInt32.ofNat (participant.refs.toNat - times)).toNat =
      participant.refs.toNat - times := by
  apply UInt32.toNat_ofNat_of_lt'
  have hRange := participant.refs.toNat_lt
  exact Nat.lt_of_le_of_lt (Nat.sub_le _ _) hRange

/- Fewer releases than series leave the remaining ones. -/
theorem releasedTimes_of_lt
    {times : Nat}
    {participant : Participant}
    (hFewer : times < participant.refs.toNat) :
    releasedTimes times (some participant) =
      some { participant with
        refs := UInt32.ofNat (participant.refs.toNat - times) } := by
  induction times generalizing participant with
  | zero => simp
  | succ times ih =>
      rw [releasedTimes_succ, Option.bind_some,
        released_of_lt (by omega), ih]
      · simp only [toNat_ofNat_refs_sub, Nat.sub_sub,
          Nat.add_comm 1 times]
      · simp only [toNat_ofNat_refs_sub]
        omega

/- As many releases as series evict a participant. -/
theorem releasedTimes_of_eq
    {times : Nat}
    {participant : Participant}
    (hAll : participant.refs.toNat = times)
    (hSome : 0 < times) :
    releasedTimes times (some participant) = none := by
  induction times generalizing participant with
  | zero => omega
  | succ times ih =>
      rw [releasedTimes_succ, Option.bind_some]
      by_cases hLast : times = 0
      · rw [released_of_le (by omega), releasedTimes_none]
      · rw [released_of_lt (by omega)]
        apply ih
        · simp only [toNat_ofNat_refs_sub]
          omega
        · omega

end Participant

namespace Ledger

/- Retaining changes the participant of its unit only. -/
theorem find?_retain
    (participants : OrderedMap UnitId Participant)
    (unit other : UnitId) :
    (retain participants unit).find? other =
      if other = unit then
        (participants.find? unit).map fun participant =>
          { participant with refs := participant.refs + 1 }
      else
        participants.find? other := by
  unfold retain
  cases hUnit : participants.find? unit with
  | none =>
      by_cases hOther : other = unit
      · simp [hOther, hUnit]
      · simp [hOther]
  | some participant => simp [OrderedMap.find?_insert]

/- Releasing changes the participant of its unit only. -/
theorem find?_release
    (participants : OrderedMap UnitId Participant)
    (unit other : UnitId) :
    (release participants unit).find? other =
      if other = unit then
        (participants.find? unit).bind Participant.released
      else
        participants.find? other := by
  unfold release Participant.released
  cases hUnit : participants.find? unit with
  | none =>
      by_cases hOther : other = unit
      · simp [hOther, hUnit]
      · simp [hOther]
  | some participant =>
      by_cases hLast : participant.refs ≤ 1
      · simp [hLast, OrderedMap.find?_erase]
      · simp [hLast, OrderedMap.find?_insert]

/- A participant is released as often as its unit is named. -/
theorem find?_foldl_release
    (units : List UnitId)
    (participants : OrderedMap UnitId Participant)
    (unit : UnitId) :
    (units.foldl release participants).find? unit =
      Participant.releasedTimes (units.count unit)
        (participants.find? unit) := by
  induction units generalizing participants with
  | nil => rfl
  | cons head units ih =>
      rw [List.foldl_cons, ih, find?_release, List.count_cons]
      by_cases hHead : unit = head
      · subst hHead
        simp [Participant.releasedTimes_succ]
      · simp [hHead, Ne.symm hHead]

------------------------------------------------------------
-- Participants
------------------------------------------------------------

/-
  No unit has two series for one event, participants count the
  series of their units, and every unit with a series is a
  participant. The counts are numbers of 32 bits.
-/
structure Referenced (ledger : Ledger) : Prop where
  distinct :
    ∀ event, Distinct (ledger.store.seriesOf event)
  counted :
    ∀ unit participant,
      ledger.participants.find? unit = some participant →
        participant.refs =
          UInt32.ofNat (ledger.store.seriesCount unit)
  enlisted :
    ∀ unit, 0 < ledger.store.seriesCount unit →
      ledger.participants.contains unit = true

theorem referenced_empty :
    Referenced empty where
  distinct := fun _ => List.nodup_nil
  counted := by
    intro unit participant hFound
    simp [empty] at hFound
  enlisted := by
    intro unit hCount
    simp [empty] at hCount

/- What is not stored in a ledger has no effect on its counts. -/
theorem Referenced.congr
    {ledger other : Ledger}
    (hReferenced : ledger.Referenced)
    (hStore : other.store = ledger.store)
    (hParticipants : other.participants = ledger.participants) :
    other.Referenced where
  distinct := by
    rw [hStore]
    exact hReferenced.distinct
  counted := by
    rw [hStore, hParticipants]
    exact hReferenced.counted
  enlisted := by
    rw [hStore, hParticipants]
    exact hReferenced.enlisted

/- A new participant has no series yet. -/
theorem Referenced.enlist
    {ledger : Ledger}
    (hReferenced : ledger.Referenced)
    (unit : UnitId)
    (node : Nat) :
    (ledger.enlist unit node).Referenced := by
  unfold Ledger.enlist
  split
  · exact hReferenced
  · rename_i hAbsent
    constructor
    · exact hReferenced.distinct
    · intro other participant hFound
      simp only [OrderedMap.find?_insert] at hFound
      split at hFound
      · rename_i hUnit
        have hNone : ledger.store.seriesCount unit = 0 :=
          Nat.eq_zero_of_not_pos
            (mt (hReferenced.enlisted unit) hAbsent)
        cases hFound
        simp [hUnit, hNone]
      · exact hReferenced.counted other participant hFound
    · intro other hCount
      have hEnlisted := hReferenced.enlisted other hCount
      simp only [OrderedMap.contains,
        OrderedMap.find?_insert] at hEnlisted ⊢
      split
      · rfl
      · exact hEnlisted

/- Enlisting adds the unit that reports to the participants. -/
theorem contains_enlist_iff
    (ledger : Ledger)
    (unit other : UnitId)
    (node : Nat) :
    (ledger.enlist unit node).participants.contains other = true ↔
      other = unit ∨
        ledger.participants.contains other = true := by
  unfold enlist
  split
  · rename_i hPresent
    constructor
    · exact .inr
    · rintro (rfl | hOther)
      · exact hPresent
      · exact hOther
  · simp only [OrderedMap.contains, OrderedMap.find?_insert]
    by_cases hOther : other = unit
    · simp [hOther]
    · simp [hOther]

/- Posting a value neither adds nor drops a participant. -/
theorem contains_post
    (unit other : UnitId)
    (change : Count → List Series → List Series)
    (ledger : Ledger)
    (reading : Reading) :
    (post unit change ledger reading).participants.contains other =
      ledger.participants.contains other := by
  unfold post
  simp only
  split
  · rfl
  · simp only [OrderedMap.contains, find?_retain]
    split
    · rename_i hOther
      rw [hOther, Option.isSome_map]
    · rfl

@[simp] theorem contains_foldl_post
    (unit other : UnitId)
    (change : Count → List Series → List Series)
    (readings : List Reading)
    (ledger : Ledger) :
    (readings.foldl (post unit change)
        ledger).participants.contains other =
      ledger.participants.contains other := by
  induction readings generalizing ledger with
  | nil => rfl
  | cons reading readings ih =>
      rw [List.foldl_cons, ih, contains_post]

/- A posting adds a series at most for the unit that reports. -/
theorem seriesCount_post
    (posting : Posting)
    (mode : Posting.Mode)
    (ledger : Ledger)
    (reading : Reading)
    (unit : UnitId) :
    (post posting.unit (posting.change mode) ledger
        reading).store.seriesCount unit =
      ledger.store.seriesCount unit +
        if unit = posting.unit ∧
            unit ∉ (ledger.store.seriesOf reading.event).map
              Series.unit then
          1
        else
          0 := by
  have hPut :=
    ledger.store.seriesCount_put reading.event
      (posting.change mode reading.value
        (ledger.store.seriesOf reading.event)) unit
  rw [Posting.change_eq,
    Posting.units_place (Posting.unit_settle _ _ _ _),
    ← Posting.change_eq] at hPut
  unfold post
  simp only
  by_cases hListed :
      posting.unit ∈
        (ledger.store.seriesOf reading.event).map Series.unit
  · rw [if_pos hListed] at hPut
    rw [if_neg fun h => h.2 (h.1 ▸ hListed)]
    omega
  · rw [if_neg hListed] at hPut
    simp only [List.mem_append, List.mem_singleton] at hPut
    by_cases hUnit : unit = posting.unit
    · subst hUnit
      rw [if_neg hListed, if_pos (.inr rfl)] at hPut
      rw [if_pos ⟨rfl, hListed⟩]
      omega
    · rw [if_neg fun h => hUnit h.1]
      simp only [hUnit, or_false] at hPut
      omega

/- Posting values takes no series away. -/
theorem seriesCount_le_foldl_post
    (posting : Posting)
    (mode : Posting.Mode)
    (readings : List Reading)
    (ledger : Ledger)
    (unit : UnitId) :
    ledger.store.seriesCount unit ≤
      (readings.foldl (post posting.unit (posting.change mode))
        ledger).store.seriesCount unit := by
  induction readings generalizing ledger with
  | nil => exact Nat.le_refl _
  | cons reading readings ih =>
      have hPost := seriesCount_post posting mode ledger reading unit
      exact Nat.le_trans (by omega) (ih _)

/- A unit that reports some value has a series afterwards. -/
theorem seriesCount_foldl_post_pos
    (posting : Posting)
    (mode : Posting.Mode)
    {readings : List Reading}
    (hSome : readings ≠ [])
    (ledger : Ledger) :
    0 < (readings.foldl (post posting.unit (posting.change mode))
      ledger).store.seriesCount posting.unit := by
  cases readings with
  | nil => contradiction
  | cons reading readings =>
      have hPost := seriesCount_post posting mode ledger reading
        posting.unit
      have hRest := seriesCount_le_foldl_post posting mode readings
        (post posting.unit (posting.change mode) ledger reading)
        posting.unit
      rw [List.foldl_cons]
      by_cases hListed :
          posting.unit ∈
            (ledger.store.seriesOf reading.event).map Series.unit
      · have hOld := Store.seriesCount_pos hListed
        omega
      · rw [if_pos ⟨rfl, hListed⟩] at hPost
        omega

/- Posting a value for a participant keeps the counts right. -/
theorem Referenced.post
    {ledger : Ledger}
    (hReferenced : ledger.Referenced)
    (posting : Posting)
    (hUnit :
      ledger.participants.contains posting.unit = true)
    (mode : Posting.Mode)
    (reading : Reading) :
    (Ledger.post posting.unit (posting.change mode) ledger
      reading).Referenced := by
  constructor
  · intro event
    unfold Ledger.post
    rw [Store.seriesOf_put]
    split
    · rw [Posting.change_eq]
      exact Posting.distinct_place
        (Posting.unit_settle _ _ _ _)
        (hReferenced.distinct reading.event)
    · exact hReferenced.distinct event
  · intro unit participant hFound
    rw [seriesCount_post]
    unfold Ledger.post at hFound
    simp only [List.any_eq_true, beq_iff_eq] at hFound
    by_cases hListed :
        posting.unit ∈
          (ledger.store.seriesOf reading.event).map Series.unit
    · rw [if_pos (List.mem_map.mp hListed)] at hFound
      rw [if_neg fun h => h.2 (h.1 ▸ hListed)]
      exact hReferenced.counted unit participant hFound
    · rw [if_neg (mt List.mem_map.mpr hListed),
        find?_retain] at hFound
      by_cases hOwn : unit = posting.unit
      · rw [if_pos hOwn, Option.map_eq_some_iff] at hFound
        rcases hFound with ⟨old, hOld, rfl⟩
        rw [hOwn, if_pos ⟨rfl, hListed⟩, UInt32.ofNat_add,
          ← hReferenced.counted posting.unit old hOld]
        rfl
      · rw [if_neg hOwn] at hFound
        rw [if_neg fun h => hOwn h.1]
        exact hReferenced.counted unit participant hFound
  · intro unit hCount
    rw [seriesCount_post] at hCount
    rw [contains_post]
    by_cases hOwn : unit = posting.unit
    · rw [hOwn]
      exact hUnit
    · rw [if_neg fun h => hOwn h.1] at hCount
      exact hReferenced.enlisted unit hCount

theorem Referenced.foldl_post
    {ledger : Ledger}
    (hReferenced : ledger.Referenced)
    (posting : Posting)
    (hUnit :
      ledger.participants.contains posting.unit = true)
    (mode : Posting.Mode)
    (readings : List Reading) :
    (readings.foldl
      (Ledger.post posting.unit (posting.change mode))
      ledger).Referenced := by
  induction readings generalizing ledger with
  | nil => exact hReferenced
  | cons reading readings ih =>
      apply ih (hReferenced.post posting hUnit mode reading)
      rw [contains_post]
      exact hUnit

/- Counts that fit their numbers are counts of series. -/
theorem Referenced.toNat_refs
    {ledger : Ledger}
    (hReferenced : ledger.Referenced)
    (hFew : ledger.store.size < UInt32.size)
    {unit : UnitId}
    {participant : Participant}
    (hFound :
      ledger.participants.find? unit = some participant) :
    participant.refs.toNat = ledger.store.seriesCount unit := by
  rw [hReferenced.counted unit participant hFound]
  exact UInt32.toNat_ofNat_of_lt'
    (Nat.lt_of_le_of_lt
      (ledger.store.seriesCount_le_size unit) hFew)

/-
  A purge evicts the units that lose their last series, and no
  others: who had no series before takes part as before.
-/
theorem Referenced.contains_purge_iff
    {ledger : Ledger}
    (hReferenced : ledger.Referenced)
    (hFew : ledger.store.size < UInt32.size)
    (unit : UnitId) :
    ledger.purge.participants.contains unit = true ↔
      ledger.participants.contains unit = true ∧
        (ledger.store.seriesCount unit = 0 ∨
          0 < ledger.purge.store.seriesCount unit) := by
  have hCount :
      ledger.purge.store.seriesCount unit +
          ledger.store.emptied.count unit =
        ledger.store.seriesCount unit :=
    Store.seriesCount_purge hReferenced.distinct unit
  have hFind :
      ledger.purge.participants.find? unit =
        Participant.releasedTimes
          (ledger.store.emptied.count unit)
          (ledger.participants.find? unit) :=
    find?_foldl_release _ _ _
  simp only [OrderedMap.contains, hFind]
  cases hOld : ledger.participants.find? unit with
  | none => simp
  | some old =>
      have hRefs := hReferenced.toNat_refs hFew hOld
      by_cases hLeft :
          ledger.store.emptied.count unit <
            ledger.store.seriesCount unit
      · rw [Participant.releasedTimes_of_lt (by omega)]
        simp only [Option.isSome_some, true_and, true_iff]
        omega
      · by_cases hNone : ledger.store.seriesCount unit = 0
        · have hZero : ledger.store.emptied.count unit = 0 := by
            omega
          simp [hZero, hNone]
        · rw [Participant.releasedTimes_of_eq (by omega)
            (by omega)]
          simp only [Option.isSome_none, Option.isSome_some,
            Bool.false_eq_true, true_and, false_iff]
          omega

/-
  A purge keeps the counts right, as long as they fit their
  numbers: a count that wraps around would evict a unit early.
-/
theorem Referenced.purge
    {ledger : Ledger}
    (hReferenced : ledger.Referenced)
    (hFew : ledger.store.size < UInt32.size) :
    ledger.purge.Referenced := by
  have hCount := Store.seriesCount_purge hReferenced.distinct
  constructor
  · intro event
    unfold Ledger.purge
    rw [Store.seriesOf_purge]
    exact (hReferenced.distinct event).survivors
  · intro unit participant hFound
    unfold Ledger.purge at hFound ⊢
    simp only [find?_foldl_release] at hFound ⊢
    cases hOld : ledger.participants.find? unit with
    | none => simp [hOld] at hFound
    | some old =>
        have hOldRefs := hReferenced.toNat_refs hFew hOld
        have hUnit := hCount unit
        rw [hOld] at hFound
        by_cases hLeft :
            ledger.store.emptied.count unit <
              ledger.store.seriesCount unit
        · rw [Participant.releasedTimes_of_lt
            (hOldRefs ▸ hLeft)] at hFound
          cases hFound
          simp only
          congr 1
          omega
        · by_cases hNone : ledger.store.emptied.count unit = 0
          · rw [hNone, Participant.releasedTimes_zero] at hFound
            cases hFound
            rw [hReferenced.counted unit _ hOld]
            congr 1
            omega
          · rw [Participant.releasedTimes_of_eq (by omega)
              (by omega)] at hFound
            contradiction
  · intro unit hLeft
    have hUnit := hCount unit
    apply (hReferenced.contains_purge_iff hFew unit).mpr
    refine ⟨hReferenced.enlisted unit ?_, .inr hLeft⟩
    unfold Ledger.purge at hLeft
    simp only at hLeft
    omega

/- Opening a ledger keeps the counts right. -/
theorem Referenced.opened
    {ledger : Ledger}
    (hReferenced : ledger.Referenced)
    (hFew : ledger.store.size < UInt32.size)
    (mode : Posting.Mode) :
    (ledger.opened mode).Referenced := by
  unfold Ledger.opened
  cases mode with
  | read =>
      simp only
      split
      · exact (hReferenced.purge hFew).congr rfl rfl
      · exact hReferenced
  | accumulate => exact hReferenced.congr rfl rfl

/- Every operation keeps the counts right. -/
theorem Referenced.apply
    {ledger : Ledger}
    (hReferenced : ledger.Referenced)
    (hFew : ledger.store.size < UInt32.size)
    (operation : Operation) :
    (ledger.apply operation).Referenced := by
  cases operation with
  | reset => exact hReferenced.congr rfl rfl
  | store mode batch =>
      rw [apply_store]
      have hOpened := hReferenced.opened hFew mode
      have hEnlisted := hOpened.enlist batch.unit batch.node
      have hUnit :
          ((ledger.opened mode).enlist batch.unit
            batch.node).participants.contains batch.unit = true :=
        (contains_enlist_iff _ _ _ _).mpr (.inl rfl)
      exact (hEnlisted.foldl_post (batch.posting ledger)
        hUnit mode batch.readings).congr rfl rfl

/- What is stored adds the unit that reports, and no other one. -/
theorem contains_apply_store_iff
    (ledger : Ledger)
    (mode : Posting.Mode)
    (batch : Batch)
    (unit : UnitId) :
    (ledger.apply (.store mode batch)).participants.contains
        unit = true ↔
      unit = batch.unit ∨
        (ledger.opened mode).participants.contains unit = true := by
  rw [apply_store]
  simp only [contains_foldl_post]
  exact contains_enlist_iff _ _ _ _

------------------------------------------------------------
-- Stored Events
------------------------------------------------------------

/- Names of the events that an operation lists. -/
def Operation.events : Operation → List String
| .store _ batch => batch.events
| .reset => []

/- Names of the events that a history lists. -/
def eventsOf (history : List Operation) : List String :=
  history.flatMap Operation.events

/- A longer history lists no fewer events. -/
theorem card_eventsOf_append_le
    (history rest : List Operation) :
    (eventsOf history).toFinset.card ≤
      (eventsOf (history ++ rest)).toFinset.card := by
  apply Finset.card_le_card
  intro name hName
  unfold eventsOf at hName ⊢
  rw [List.flatMap_append, List.mem_toFinset, List.mem_append]
  exact .inl (List.mem_toFinset.mp hName)

theorem names_put_subset
    (store : Store)
    (event : String)
    (series : List Series) :
    (store.put event series).names ⊆ event :: store.names := by
  intro name hName
  unfold Store.names Store.put at hName
  rcases OrderedMap.mem_keys_iff.mp hName with ⟨value, hFound⟩
  rw [OrderedMap.find?_insert] at hFound
  split at hFound
  · rename_i hEvent
    exact hEvent ▸ List.mem_cons_self
  · exact List.mem_cons_of_mem _
      (OrderedMap.mem_keys_iff.mpr ⟨value, hFound⟩)

theorem names_purge_subset
    (store : Store) :
    store.purge.names ⊆ store.names := by
  intro name hName
  unfold Store.names Store.purge at hName
  rcases OrderedMap.mem_keys_iff.mp hName with ⟨value, hFound⟩
  rw [OrderedMap.find?_filterMap,
    Option.bind_eq_some_iff] at hFound
  rcases hFound with ⟨old, hOld, _⟩
  exact OrderedMap.mem_keys_iff.mpr ⟨old, hOld⟩

theorem names_foldl_post_subset
    (unit : UnitId)
    (change : Count → List Series → List Series)
    (readings : List Reading)
    (ledger : Ledger) :
    (readings.foldl (post unit change) ledger).store.names ⊆
      ledger.store.names ++ readings.map Reading.event := by
  induction readings generalizing ledger with
  | nil => simp
  | cons reading readings ih =>
      intro name hName
      have hRest := ih _ hName
      rw [List.mem_append] at hRest
      rw [List.map_cons, List.mem_append, List.mem_cons]
      rcases hRest with hStored | hListed
      · have hPut := names_put_subset _ _ _ hStored
        rcases List.mem_cons.mp hPut with hNew | hOld
        · exact .inr (.inl hNew)
        · exact .inl hOld
      · exact .inr (.inr hListed)

/- Only events that an operation lists are new to a store. -/
theorem names_apply_subset
    (ledger : Ledger)
    (operation : Operation) :
    (ledger.apply operation).store.names ⊆
      ledger.store.names ++ operation.events := by
  cases operation with
  | reset => exact List.subset_append_left _ _
  | store mode batch =>
      have hOpened :
          (ledger.opened mode).store.names ⊆
            ledger.store.names := by
        unfold opened
        cases mode with
        | read =>
            simp only
            split
            · exact names_purge_subset ledger.store
            · exact List.Subset.refl _
        | accumulate => exact List.Subset.refl _
      rw [apply_store]
      intro name hName
      have hPosted := names_foldl_post_subset _ _ _ _ hName
      rw [store_enlist] at hPosted
      rcases List.mem_append.mp hPosted with hOld | hListed
      · exact List.mem_append_left _ (hOpened hOld)
      · exact List.mem_append_right _ hListed

/- Every stored event was listed by the history. -/
theorem names_replay_subset
    (history : List Operation) :
    (empty.replay history).store.names ⊆ eventsOf history := by
  induction history using List.reverseRecOn with
  | nil => exact List.Subset.refl _
  | append_singleton history operation ih =>
      intro name hName
      rw [replay_append] at hName
      have hStep := names_apply_subset _ _ hName
      unfold eventsOf
      rw [List.flatMap_append, List.mem_append]
      rcases List.mem_append.mp hStep with hOld | hNew
      · exact .inl (ih hOld)
      · exact .inr (by simpa using hNew)

/- A store has at most as many events as its history lists. -/
theorem size_replay_le
    (history : List Operation) :
    (empty.replay history).store.size ≤
      (eventsOf history).toFinset.card := by
  have hNames := (empty.replay history).store.events.nodup_keys
  have hSize :
      (empty.replay history).store.size =
        (empty.replay history).store.names.toFinset.card := by
    unfold Store.names
    rw [List.toFinset_card_of_nodup hNames]
    simp [Store.size, OrderedMap.size, OrderedMap.keys]
  rw [hSize]
  apply Finset.card_le_card
  intro name hName
  rw [List.mem_toFinset] at hName ⊢
  exact names_replay_subset history hName

/-
  Along every history of fewer events than there are numbers
  of 32 bits, participants count the series of their units.
-/
theorem referenced_replay
    {history : List Operation}
    (hFew : (eventsOf history).toFinset.card < UInt32.size) :
    (empty.replay history).Referenced := by
  induction history using List.reverseRecOn with
  | nil => exact referenced_empty
  | append_singleton history operation ih =>
      have hEvents := card_eventsOf_append_le history [operation]
      have hSize := size_replay_le history
      rw [replay_append]
      exact (ih (by omega)).apply (by omega) operation

end Ledger

end CoreTally
