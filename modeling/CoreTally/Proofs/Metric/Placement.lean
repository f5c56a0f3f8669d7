import CoreTally.Proofs.Metric.UnitCounts

/-
  The components of the participants of a ledger. A ledger is
  told a component with every batch and remembers the one that
  came first. If all batches of a unit come with the component
  that a place has been found for, then the participants stand
  at their places, whatever is evicted and enlisted again.

  Key definitions include:
    * `Ledger.Placed`

  Key theorems include:
    * `Ledger.Placed.apply_store`
    * `Ledger.Attended.opened_of_counts`
-/

namespace CoreTally

open EventSeries

namespace Ledger

variable {ledger : Ledger}
variable {place : UnitId → Option Nat}

------------------------------------------------------------
-- Places
------------------------------------------------------------

/- Every participant stands at the place of its unit. -/
def Placed
    (place : UnitId → Option Nat)
    (ledger : Ledger) : Prop :=
  ∀ unit participant,
    ledger.participants.find? unit = some participant →
      place unit = some participant.node

theorem placed_empty
    (place : UnitId → Option Nat) :
    empty.Placed place := by
  intro unit participant hFound
  contradiction

/- A participant that is left after some releases has not moved. -/
theorem node_releasedTimes
    {times : Nat}
    {participant? : Option Participant}
    {participant : Participant}
    (hLeft :
      Participant.releasedTimes times participant? =
        some participant) :
    ∃ old, participant? = some old ∧
      participant.node = old.node := by
  induction times generalizing participant? with
  | zero => exact ⟨participant, hLeft, rfl⟩
  | succ times ih =>
      rw [Participant.releasedTimes_succ] at hLeft
      rcases ih hLeft with ⟨between, hBetween, hNode⟩
      rcases Option.bind_eq_some_iff.mp hBetween with
        ⟨old, rfl, hReleased⟩
      unfold Participant.released at hReleased
      split at hReleased
      · contradiction
      · cases hReleased
        exact ⟨old, rfl, hNode⟩

theorem Placed.opened
    (hPlaced : ledger.Placed place)
    (mode : Posting.Mode) :
    (ledger.opened mode).Placed place := by
  have hPurge : ledger.purge.Placed place := by
    intro unit participant hFound
    unfold purge at hFound
    rw [find?_foldl_release] at hFound
    rcases node_releasedTimes hFound with ⟨old, hOld, hNode⟩
    rw [hNode]
    exact hPlaced unit old hOld
  unfold Ledger.opened
  cases mode with
  | read =>
      simp only
      split
      · exact hPurge
      · exact hPlaced
  | accumulate => exact hPlaced

/- A unit that is new has the place that it comes with. -/
theorem Placed.enlist
    (hPlaced : ledger.Placed place)
    {unit : UnitId}
    {node : Nat}
    (hNode : place unit = some node) :
    (ledger.enlist unit node).Placed place := by
  unfold Ledger.enlist
  split
  · exact hPlaced
  · intro other participant hFound
    rw [OrderedMap.find?_insert] at hFound
    by_cases hOther : other = unit
    · rw [if_pos hOther] at hFound
      cases hFound
      rw [hOther]
      exact hNode
    · rw [if_neg hOther] at hFound
      exact hPlaced other participant hFound

/- To count a series does not move a participant. -/
theorem Placed.foldl_post
    (hPlaced : ledger.Placed place)
    (unit : UnitId)
    (change : Count → List Series → List Series)
    (readings : List Reading) :
    (readings.foldl (post unit change) ledger).Placed place := by
  induction readings generalizing ledger with
  | nil => exact hPlaced
  | cons reading readings ih =>
      apply ih
      intro other participant hFound
      rw [find?_post] at hFound
      split at hFound
      · rcases Option.map_eq_some_iff.mp hFound with
          ⟨old, hOld, rfl⟩
        exact hPlaced other old hOld
      · exact hPlaced other participant hFound

/- What is stored with its place leaves all units in place. -/
theorem Placed.apply_store
    (hPlaced : ledger.Placed place)
    (mode : Posting.Mode)
    {batch : Batch}
    (hNode : place batch.unit = some batch.node) :
    (ledger.apply (.store mode batch)).Placed place := by
  rw [Ledger.apply_store]
  exact ((hPlaced.opened mode).enlist hNode).foldl_post
    batch.unit _ batch.readings

------------------------------------------------------------
-- Attendance
------------------------------------------------------------

/-
  Where every series is counted, a purge leaves participants
  only where it leaves series.
-/
theorem attended_purge
    (hAttended : ledger.Attended)
    (hCounts : ∀ unit, ledger.Counts unit)
    (hDistinct :
      ∀ event, Distinct (ledger.store.seriesOf event)) :
    ledger.purge.Attended := by
  intro unit hContains
  have hSeries :
      ledger.purge.store.seriesCount unit +
          ledger.store.emptied.count unit =
        ledger.store.seriesCount unit :=
    Store.seriesCount_purge hDistinct unit
  have hFind :
      ledger.purge.participants.find? unit =
        Participant.releasedTimes
          (ledger.store.emptied.count unit)
          (ledger.participants.find? unit) :=
    find?_foldl_release _ _ _
  have hUnit := hCounts unit
  have hBefore := hAttended unit
  rw [OrderedMap.contains, hFind] at hContains
  rw [OrderedMap.contains] at hBefore
  rw [Counts, refsOf] at hUnit
  cases hOld : ledger.participants.find? unit with
  | none => simp [hOld] at hContains
  | some old =>
      simp only [hOld, Option.isSome_some, forall_const]
        at hUnit hBefore hContains
      by_cases hNone : ledger.purge.store.seriesCount unit = 0
      · rw [Participant.releasedTimes_of_eq (by omega)
          (by omega)] at hContains
        contradiction
      · exact Nat.pos_of_ne_zero hNone

theorem Attended.opened_of_counts
    (hAttended : ledger.Attended)
    (hCounts : ∀ unit, ledger.Counts unit)
    (hDistinct :
      ∀ event, Distinct (ledger.store.seriesOf event))
    (mode : Posting.Mode) :
    (ledger.opened mode).Attended := by
  unfold Ledger.opened
  cases mode with
  | read =>
      simp only
      split
      · exact attended_purge hAttended hCounts hDistinct
      · exact hAttended
  | accumulate => exact hAttended

end Ledger

end CoreTally
