import CoreTally.Proofs.Metric.Representation
import Mathlib.Data.Set.Card

/-
  The number of series that a ledger counts for one unit. It is
  the number of series that are stored, as long as this fits
  the count: nothing else has to be known of the other units or
  of the number of events.

  Key definitions include:
    * `Store.eventsOn`
    * `Ledger.refsOf`
    * `Ledger.Counts`

  Key theorems include:
    * `Store.encard_eventsOn`
    * `Ledger.Counts.apply`
    * `Ledger.counts_replay`
-/

namespace CoreTally

open EventSeries

------------------------------------------------------------
-- Events on a Unit
------------------------------------------------------------

namespace Store

/- The events of which a unit has a series. -/
def eventsOn
    (store : Store)
    (unit : UnitId) : Set String :=
  { event | (store.unitSeries? event unit).isSome = true }

/- There are as many of them as the unit has series. -/
theorem encard_eventsOn
    (store : Store)
    (unit : UnitId) :
    (store.eventsOn unit).encard = store.seriesCount unit := by
  let listed : List String :=
    (store.events.toList.filter fun pair =>
      unit ∈ pair.2.map Series.unit).map Prod.fst
  have hNodup : listed.Nodup :=
    List.Nodup.sublist (List.filter_sublist.map _)
      store.events.nodup_keys
  have hListed :
      store.eventsOn unit = (listed.toFinset : Set String) := by
    ext event
    simp only [eventsOn, Set.mem_ofPred_eq, isSome_unitSeries?_iff,
      List.coe_toFinset, listed, List.mem_map, List.mem_filter,
      decide_eq_true_eq]
    constructor
    · intro hUnit
      unfold seriesOf series? at hUnit
      cases hFound : store.events.find? event with
      | none => simp [hFound] at hUnit
      | some series =>
          refine ⟨(event, series),
            ⟨OrderedMap.find?_eq_some_iff.mp hFound, ?_⟩, rfl⟩
          simpa [hFound] using hUnit
    · rintro ⟨pair, ⟨hPair, hUnit⟩, rfl⟩
      rw [seriesOf_eq_of_mem hPair]
      simpa using hUnit
  rw [hListed, Set.encard_coe_eq_coe_finsetCard,
    List.toFinset_card_of_nodup hNodup, List.length_map,
    ← List.countP_eq_length_filter]
  rfl

end Store

------------------------------------------------------------
-- Counts of a Unit
------------------------------------------------------------

namespace Ledger

variable {ledger : Ledger}
variable {unit : UnitId}

/- The number of series counted for a unit, if it takes part. -/
def refsOf
    (ledger : Ledger)
    (unit : UnitId) : Nat :=
  match ledger.participants.find? unit with
  | none => 0
  | some participant => participant.refs.toNat

/- All series of a unit are counted. -/
def Counts
    (ledger : Ledger)
    (unit : UnitId) : Prop :=
  ledger.refsOf unit = ledger.store.seriesCount unit

theorem counts_empty
    (unit : UnitId) :
    empty.Counts unit := rfl

/- A unit that has a counted series takes part. -/
theorem Counts.contains
    (hCounts : ledger.Counts unit)
    (hSeries : 0 < ledger.store.seriesCount unit) :
    ledger.participants.contains unit = true := by
  rw [← hCounts, refsOf] at hSeries
  rw [OrderedMap.contains]
  cases hFound : ledger.participants.find? unit with
  | none => simp [hFound] at hSeries
  | some participant => rfl

/- A new participant has no series counted. -/
@[simp] theorem refsOf_enlist
    (ledger : Ledger)
    (reporter : UnitId)
    (node : Nat)
    (unit : UnitId) :
    (ledger.enlist reporter node).refsOf unit =
      ledger.refsOf unit := by
  unfold enlist
  split
  · rfl
  · rename_i hAbsent
    rw [refsOf, refsOf, OrderedMap.find?_insert]
    by_cases hUnit : unit = reporter
    · have hNone : ledger.participants.find? reporter = none := by
        simpa [OrderedMap.contains] using hAbsent
      simp [hUnit, hNone]
    · rw [if_neg hUnit]

/- A purge takes one from a count for every emptied series. -/
theorem refsOf_purge
    (hEmptied :
      ledger.store.emptied.count unit ≤ ledger.refsOf unit) :
    ledger.purge.refsOf unit =
      ledger.refsOf unit - ledger.store.emptied.count unit := by
  have hFind :
      ledger.purge.participants.find? unit =
        Participant.releasedTimes
          (ledger.store.emptied.count unit)
          (ledger.participants.find? unit) :=
    find?_foldl_release _ _ _
  unfold refsOf at hEmptied ⊢
  rw [hFind]
  cases hOld : ledger.participants.find? unit with
  | none => simp
  | some old =>
      simp only [hOld] at hEmptied
      rcases Nat.lt_or_eq_of_le hEmptied with hLess | hAll
      · rw [Participant.releasedTimes_of_lt hLess]
        exact Participant.toNat_ofNat_refs_sub old _
      · rcases Nat.eq_zero_or_pos
          (ledger.store.emptied.count unit) with hNone | hSome
        · rw [hNone]
          rfl
        · rw [Participant.releasedTimes_of_eq hAll.symm hSome]
          simp [hAll]

theorem Counts.purge
    (hCounts : ledger.Counts unit)
    (hDistinct :
      ∀ event, Distinct (ledger.store.seriesOf event)) :
    ledger.purge.Counts unit := by
  have hSeries :
      ledger.purge.store.seriesCount unit +
          ledger.store.emptied.count unit =
        ledger.store.seriesCount unit :=
    Store.seriesCount_purge hDistinct unit
  unfold Counts at hCounts ⊢
  rw [refsOf_purge (by omega)]
  omega

theorem Counts.opened
    (hCounts : ledger.Counts unit)
    (hDistinct :
      ∀ event, Distinct (ledger.store.seriesOf event))
    (mode : Posting.Mode) :
    (ledger.opened mode).Counts unit := by
  unfold Ledger.opened
  cases mode with
  | read =>
      simp only
      split
      · exact hCounts.purge hDistinct
      · exact hCounts
  | accumulate => exact hCounts

/- A posting counts one series more where it adds one. -/
theorem find?_post
    (unit other : UnitId)
    (change : Count → List Series → List Series)
    (ledger : Ledger)
    (reading : Reading) :
    (post unit change ledger reading).participants.find? other =
      if other = unit ∧
          other ∉ (ledger.store.seriesOf reading.event).map
            Series.unit then
        (ledger.participants.find? other).map fun participant =>
          { participant with refs := participant.refs + 1 }
      else
        ledger.participants.find? other := by
  have hAny :
      (ledger.store.seriesOf reading.event).any
            (·.unit == unit) = true ↔
        unit ∈ (ledger.store.seriesOf reading.event).map
          Series.unit := by
    simp
  unfold post
  simp only [hAny]
  by_cases hListed :
      unit ∈ (ledger.store.seriesOf reading.event).map Series.unit
  · rw [if_pos hListed, if_neg fun h => h.2 (h.1 ▸ hListed)]
  · rw [if_neg hListed, find?_retain]
    by_cases hOther : other = unit
    · subst hOther
      rw [if_pos rfl, if_pos ⟨rfl, hListed⟩]
    · rw [if_neg hOther, if_neg fun h => hOther h.1]

/- A posting counts the series that it adds, if the count fits. -/
theorem Counts.post
    (hCounts : ledger.Counts unit)
    (posting : Posting)
    (hUnit :
      ledger.participants.contains posting.unit = true)
    (mode : Posting.Mode)
    (reading : Reading)
    (hFits :
      (Ledger.post posting.unit (posting.change mode) ledger
        reading).store.seriesCount unit < UInt32.size) :
    (Ledger.post posting.unit (posting.change mode) ledger
      reading).Counts unit := by
  rw [Counts] at hCounts ⊢
  rw [seriesCount_post, ← hCounts] at hFits ⊢
  unfold refsOf at hFits ⊢
  rw [find?_post]
  by_cases hNew :
      unit = posting.unit ∧
        unit ∉ (ledger.store.seriesOf reading.event).map
          Series.unit
  · rw [if_pos hNew] at hFits
    rw [if_pos hNew, if_pos hNew]
    rcases Option.isSome_iff_exists.mp hUnit with
      ⟨participant, hFound⟩
    rw [← hNew.1] at hFound
    simp only [hFound, Option.map_some, UInt32.toNat_add] at hFits ⊢
    exact Nat.mod_eq_of_lt hFits
  · rw [if_neg hNew, if_neg hNew]
    rfl

theorem Counts.foldl_post
    (hCounts : ledger.Counts unit)
    (posting : Posting)
    (hUnit :
      ledger.participants.contains posting.unit = true)
    (mode : Posting.Mode)
    (readings : List Reading)
    (hFits :
      (readings.foldl
        (Ledger.post posting.unit (posting.change mode))
        ledger).store.seriesCount unit < UInt32.size) :
    (readings.foldl
      (Ledger.post posting.unit (posting.change mode))
      ledger).Counts unit := by
  induction readings generalizing ledger with
  | nil => exact hCounts
  | cons reading readings ih =>
      -- No posting takes a series away, so that what fits in the
      -- end fits at every reading.
      have hLess :=
        seriesCount_le_foldl_post posting mode readings
          (Ledger.post posting.unit (posting.change mode) ledger
            reading) unit
      apply ih
      · exact hCounts.post posting hUnit mode reading
          (Nat.lt_of_le_of_lt hLess hFits)
      · rw [contains_post]
        exact hUnit
      · exact hFits

/- Every operation counts right, if the count fits afterwards. -/
theorem Counts.apply
    (hCounts : ledger.Counts unit)
    (hDistinct :
      ∀ event, Distinct (ledger.store.seriesOf event))
    (operation : Operation)
    (hFits :
      (ledger.apply operation).store.seriesCount unit <
        UInt32.size) :
    (ledger.apply operation).Counts unit := by
  cases operation with
  | reset => exact hCounts
  | store mode batch =>
      rw [apply_store] at hFits ⊢
      have hEnlisted :
          ((ledger.opened mode).enlist batch.unit
            batch.node).Counts unit := by
        rw [Counts, refsOf_enlist, store_enlist]
        exact hCounts.opened hDistinct mode
      have hUnit :
          ((ledger.opened mode).enlist batch.unit
            batch.node).participants.contains batch.unit = true :=
        (contains_enlist_iff _ _ _ _).mpr (.inl rfl)
      exact hEnlisted.foldl_post (batch.posting ledger) hUnit
        mode batch.readings hFits

/-
  The series of a unit are counted all along a history, as long
  as their number is one of 32 bits.
-/
theorem counts_replay
    {history : List Operation}
    (hFits :
      ∀ done, done <+: history →
        (empty.replay done).store.seriesCount unit <
          UInt32.size) :
    (empty.replay history).Counts unit := by
  induction history using List.reverseRecOn with
  | nil => exact counts_empty unit
  | append_singleton history operation ih =>
      have hBefore := ih fun done hDone =>
        hFits done (hDone.trans (List.prefix_append _ _))
      have hAfter := hFits _ List.prefix_rfl
      rw [replay_append] at hAfter ⊢
      exact hBefore.apply
        (fun event => ((sound_replay history).every event).distinct)
        operation hAfter

end Ledger

end CoreTally
