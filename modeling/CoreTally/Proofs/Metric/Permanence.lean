import CoreTally.Proofs.Metric.References

/-
  Permanent entries form an append-only log. Whatever a ledger
  is asked to do, it only adds to the permanent entries of an
  event on a unit, and it keeps the unit as a participant.

  Key definitions include:
    * `Ledger.permanentsOn`

  Key theorems include:
    * `Ledger.permanents_apply`
    * `Ledger.contains_apply_of_permanents`
    * `Ledger.permanents_append_only`
-/

namespace CoreTally

open EventSeries

namespace Ledger

/- The permanent entries of an event on a unit, oldest first. -/
def permanentsOn
    (ledger : Ledger)
    (event : String)
    (unit : UnitId) : List Entry :=
  match ledger.store.unitSeries? event unit with
  | none => []
  | some series => series.permanents

theorem permanentsOn_eq
    (ledger : Ledger)
    (event : String)
    (unit : UnitId) :
    ledger.permanentsOn event unit =
      (onUnit unit (ledger.store.seriesOf event)).permanents := by
  unfold permanentsOn onUnit Store.unitSeries?
  cases (ledger.store.seriesOf event).find? (·.unit == unit) with
  | none => rfl
  | some series => rfl

------------------------------------------------------------
-- One Posting
------------------------------------------------------------

/- A posting only adds to the permanent entries of a unit. -/
theorem permanents_change
    (posting : Posting)
    (mode : Posting.Mode)
    (value : Count)
    (series : List Series)
    (unit : UnitId) :
    (onUnit unit series).permanents <+:
      (onUnit unit
        (posting.change mode value series)).permanents := by
  rw [Posting.change_eq,
    Posting.onUnit_place (Posting.unit_settle _ _ _ _),
    Posting.moved]
  split
  · unfold Posting.settle
    rw [← Series.permanents_purge (onUnit unit series)]
    exact Series.permanents_prefix_push _ _
  · rw [Series.permanents_carry]

theorem permanents_foldl_change
    (posting : Posting)
    (mode : Posting.Mode)
    (values : List Count)
    (series : List Series)
    (unit : UnitId) :
    (onUnit unit series).permanents <+:
      (onUnit unit
        (values.foldl
          (fun series value => posting.change mode value series)
          series)).permanents := by
  induction values generalizing series with
  | nil => exact List.prefix_refl _
  | cons value values ih =>
      exact (permanents_change posting mode value series unit).trans
        (ih (posting.change mode value series))

/- Opening a ledger drops no permanent entry. -/
theorem permanentsOn_opened
    {ledger : Ledger}
    (hReferenced : ledger.Referenced)
    (mode : Posting.Mode)
    (event : String)
    (unit : UnitId) :
    (ledger.opened mode).permanentsOn event unit =
      ledger.permanentsOn event unit := by
  rw [permanentsOn_eq, permanentsOn_eq, seriesOf_opened]
  split
  · rw [onUnit_survivors (hReferenced.distinct event),
      Series.permanents_purge]
  · rfl

------------------------------------------------------------
-- One Operation
------------------------------------------------------------

/- An operation only adds to the permanent entries of a unit. -/
theorem permanents_apply
    {ledger : Ledger}
    (hReferenced : ledger.Referenced)
    (operation : Operation)
    (event : String)
    (unit : UnitId) :
    ledger.permanentsOn event unit <+:
      (ledger.apply operation).permanentsOn event unit := by
  cases operation with
  | reset => exact List.prefix_refl _
  | store mode batch =>
      rw [← permanentsOn_opened hReferenced mode,
        permanentsOn_eq, permanentsOn_eq, seriesOf_apply]
      exact permanents_foldl_change _ _ _ _ _

/- A unit with permanent entries has a series. -/
theorem mem_units_of_permanents
    {ledger : Ledger}
    {event : String}
    {unit : UnitId}
    (hPermanents : ledger.permanentsOn event unit ≠ []) :
    unit ∈ (ledger.store.seriesOf event).map Series.unit := by
  by_contra hAbsent
  apply hPermanents
  rw [permanentsOn_eq, onUnit_of_notMem hAbsent]
  rfl

/- A unit with permanent entries stays a participant. -/
theorem contains_apply_of_permanents
    {ledger : Ledger}
    (hReferenced : ledger.Referenced)
    (hFew : ledger.store.size < UInt32.size)
    {event : String}
    {unit : UnitId}
    (hPermanents : ledger.permanentsOn event unit ≠ [])
    (operation : Operation) :
    (ledger.apply operation).participants.contains unit =
      true := by
  cases operation with
  | reset =>
      apply hReferenced.enlisted
      exact Store.seriesCount_pos
        (mem_units_of_permanents hPermanents)
  | store mode batch =>
      rw [← permanentsOn_opened hReferenced mode] at hPermanents
      have hOpened := hReferenced.opened hFew mode
      have hContains :=
        hOpened.enlisted unit
          (Store.seriesCount_pos
            (mem_units_of_permanents hPermanents))
      exact (contains_apply_store_iff _ _ _ _).mpr (.inr hContains)

/-
  In every reachable ledger, an operation leaves the permanent
  entries of an event on a unit as the beginning of those it
  has afterwards. A unit with such entries keeps its series
  and remains a participant.
-/
theorem permanents_append_only
    {history : List Operation}
    (hFew : (eventsOf history).toFinset.card < 2 ^ 32)
    (operation : Operation)
    (event : String)
    (unit : UnitId) :
    let before := empty.replay history
    let after := before.apply operation
    before.permanentsOn event unit <+:
        after.permanentsOn event unit ∧
      (before.permanentsOn event unit ≠ [] →
        (after.store.unitSeries? event unit).isSome = true ∧
          after.participants.contains unit = true) := by
  intro before after
  have hReferenced : before.Referenced := referenced_replay hFew
  have hPrefix : before.permanentsOn event unit <+:
      after.permanentsOn event unit :=
    permanents_apply hReferenced operation event unit
  refine ⟨hPrefix, ?_⟩
  intro hPermanents
  constructor
  · have hAfter : after.permanentsOn event unit ≠ [] :=
      fun hNone => hPermanents
        (List.prefix_nil.mp (hNone ▸ hPrefix))
    unfold permanentsOn at hAfter
    cases hSeries : after.store.unitSeries? event unit with
    | none => simp [hSeries] at hAfter
    | some series => rfl
  · have hSize : before.store.size < UInt32.size :=
      Nat.lt_of_le_of_lt (size_replay_le history) hFew
    exact contains_apply_of_permanents hReferenced hSize
      hPermanents operation

/-
  A read of another unit carries out the reset that is pending
  and evicts the unit without permanent entries.
-/
theorem permanents_append_only_evicting_read :
    let history : List Operation :=
      [.store .read ⟨0, 3, 1, [⟨"TOT_INS", 10⟩], true⟩,
        .store .read ⟨1, 4, 2, [⟨"TOT_INS", 25⟩], false⟩, .reset]
    let read : Operation :=
      .store .read ⟨0, 3, 3, [⟨"TOT_INS", 3⟩], false⟩
    let before := empty.replay history
    let after := before.apply read
    (eventsOf history).toFinset.card < 2 ^ 32 ∧
      before.permanentsOn "TOT_INS" 0 = [⟨1, 10, true⟩] ∧
      after.participants.contains 1 = false ∧
      before.permanentsOn "TOT_INS" 0 <+:
        after.permanentsOn "TOT_INS" 0 ∧
      (before.permanentsOn "TOT_INS" 0 ≠ [] →
        (after.store.unitSeries? "TOT_INS" 0).isSome = true ∧
          after.participants.contains 0 = true) :=
  ⟨by decide, by decide, by decide,
    permanents_append_only (by decide) _ "TOT_INS" 0⟩

end Ledger

end CoreTally
