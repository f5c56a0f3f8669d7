import CoreTally.Proofs.Metric.PostingForm

/-
  A cumulative value that is spread over units. Behind what
  the series of an event keep for good, each reporting unit
  has one temporary entry, and these entries add up to the
  last raw value without cancelling each other out. A read of
  a value further out credits the increase to its unit.

  Key definitions include:
    * `Series.Holds`
    * `Posting.Outward`
    * `EventSeries.Spread`

  Key theorems include:
    * `EventSeries.Spread.exact`
    * `EventSeries.Spread.toInt_credit`
    * `EventSeries.Spread.read`
-/

namespace CoreTally

------------------------------------------------------------
-- One Series
------------------------------------------------------------

/- What a unit is credited with, nothing if it never reported. -/
def worth (credit : Option Count) : Int :=
  credit.elim 0 Int64.toInt

@[simp] theorem worth_none :
    worth none = 0 := rfl

@[simp] theorem worth_some
    (value : Count) :
    worth (some value) = value.toInt := rfl

namespace Series

/-
  A series has certain entries and then, if its unit has been
  credited, a temporary one of the latest instant.
-/
def Holds
    (kept : List Entry)
    (latest : Instant)
    (credit : Option Count)
    (series : Series) : Prop :=
  series.entries =
    kept ++ (credit.map fun value => ⟨latest, value, false⟩).toList

namespace Holds

variable {kept : List Entry}
variable {latest : Instant}
variable {credit : Option Count}
variable {series : Series}

theorem retentive
    (hHolds : series.Holds kept latest credit)
    (hKept : ∀ entry ∈ kept, entry.permanent = true) :
    series.Retentive := by
  rw [Retentive, hHolds]
  apply List.pairwise_append.mpr
  refine ⟨?_, ?_, ?_⟩
  · exact List.Pairwise.imp_of_mem
      (fun hEntry _ _ => hKept _ hEntry)
      (List.pairwise_of_forall fun _ _ => trivial)
  · cases credit with
    | none => exact List.Pairwise.nil
    | some value => exact List.pairwise_singleton _ _
  · intro entry hEntry _ _
    exact hKept entry hEntry

theorem current
    (hHolds : series.Holds kept latest credit)
    (hKept : ∀ entry ∈ kept, entry.permanent = true) :
    series.Current latest := by
  intro entry hEntry hTemporary
  rw [hHolds, List.mem_append] at hEntry
  rcases hEntry with hOld | hNew
  · rw [hKept entry hOld] at hTemporary
    contradiction
  · cases credit with
    | none => simp at hNew
    | some value =>
        rw [List.mem_singleton.mp hNew]

/- A purge leaves what is kept. -/
theorem entries_purge
    (hHolds : series.Holds kept latest credit)
    (hKept : ∀ entry ∈ kept, entry.permanent = true) :
    series.purge.entries = kept := by
  rw [Series.entries_purge (hHolds.retentive hKept), permanents,
    hHolds, List.filter_append, List.filter_eq_self.mpr hKept]
  cases credit <;> simp

/- The unit of the series is credited with a new value. -/
theorem purge_push
    (hHolds : series.Holds kept latest credit)
    (hKept : ∀ entry ∈ kept, entry.permanent = true)
    (instant : Instant)
    (value : Count) :
    (series.purge.push ⟨instant, value, false⟩).Holds kept
      instant (some value) := by
  rw [Holds, push, hHolds.entries_purge hKept]
  rfl

/- What is temporary is what the unit is credited with. -/
theorem share
    (hHolds : series.Holds kept latest credit)
    (hKept : ∀ entry ∈ kept, entry.permanent = true) :
    series.share false latest = worth credit := by
  rcases series with ⟨unit, entries⟩
  cases credit with
  | none =>
      have hEntries : entries = kept := by
        simpa [Holds] using hHolds
      apply share_of_permanent
      rwa [hEntries]
  | some value =>
      have hEntries : entries = kept ++ [⟨latest, value, false⟩] :=
        hHolds
      rw [hEntries, share_concat]
      simp

/- Carrying the series forward keeps the credit of its unit. -/
theorem carry
    (hHolds : series.Holds kept latest credit)
    (hKept : ∀ entry ∈ kept, entry.permanent = true)
    (next : Instant) :
    (series.carry latest next).Holds kept next credit := by
  rcases series with ⟨unit, entries⟩
  cases credit with
  | none =>
      have hEntries : entries = kept := by
        simpa [Holds] using hHolds
      rw [carry_of_entries_permanent]
      · simpa [Holds] using hEntries
      · rwa [hEntries]
  | some value =>
      have hEntries : entries = kept ++ [⟨latest, value, false⟩] :=
        hHolds
      rw [hEntries, carry_of_temporary _ _ _ _ _ rfl, if_pos rfl]
      rfl

end Holds

end Series

------------------------------------------------------------
-- The Series of an Event
------------------------------------------------------------

namespace Posting

/- A raw value lies as far out as the one before, or further. -/
def Outward (total value : Int) : Prop :=
  0 ≤ total ∧ total ≤ value ∨ value ≤ total ∧ total ≤ 0

end Posting

namespace EventSeries

/-
  The temporary entries of the credited units add up to a
  total, all of them with its sign.
-/
structure Spread
    (kept : UnitId → List Entry)
    (credit : UnitId → Option Count)
    (latest : Instant)
    (total : Int)
    (series : List Series) : Prop where
  distinct : Distinct series
  holds :
    ∀ unit,
      (onUnit unit series).Holds (kept unit) latest (credit unit)
  permanent : ∀ unit, ∀ entry ∈ kept unit, entry.permanent = true
  sum : (series.map (Series.share false latest)).sum = total
  magnitude :
    (series.map fun one => (one.share false latest).natAbs).sum =
      total.natAbs

namespace Spread

variable {kept : UnitId → List Entry}
variable {credit : UnitId → Option Count}
variable {posting : Posting}
variable {total : Int}
variable {value : Count}
variable {series : List Series}

/- Without series there is nothing to spread. -/
theorem nil (latest : Instant) :
    Spread (fun _ => []) (fun _ => none) latest 0 [] := by
  constructor
  case distinct => exact List.nodup_nil
  case holds =>
    intro unit
    rfl
  case permanent => simp
  case sum => rfl
  case magnitude => rfl

theorem share_onUnit
    {latest : Instant}
    (hSpread : Spread kept credit latest total series)
    (unit : UnitId) :
    (onUnit unit series).share false latest =
      worth (credit unit) :=
  (hSpread.holds unit).share (hSpread.permanent unit)

theorem current
    {latest : Instant}
    (hSpread : Spread kept credit latest total series)
    {one : Series}
    (hOne : one ∈ series) :
    one.Current latest := by
  have hHolds := hSpread.holds one.unit
  rw [onUnit_of_mem hSpread.distinct hOne] at hHolds
  exact hHolds.current (hSpread.permanent one.unit)

/- What other units hold is the rest of the total. -/
theorem exactTotal_held
    (hSpread : Spread kept credit posting.previous total series) :
    worth (credit posting.unit) +
        Count.exactTotal (posting.heldValues false series) =
      total := by
  rw [Posting.exactTotal_heldValues, ← hSpread.share_onUnit,
    ← sum_eq_onUnit_add_others hSpread.distinct]
  · exact hSpread.sum
  · rfl

/- Nothing that is held cancels out. -/
theorem magnitude_held
    (hSpread : Spread kept credit posting.previous total series) :
    (worth (credit posting.unit)).natAbs +
        Count.magnitude (posting.heldValues false series) =
      total.natAbs := by
  rw [Posting.magnitude_heldValues, ← hSpread.share_onUnit,
    ← sum_eq_onUnit_add_others hSpread.distinct
      fun one => (one.share false posting.previous).natAbs]
  · exact hSpread.magnitude
  · rfl

/-
  No operation clips when a read takes what other units hold
  from a value further out.
-/
theorem exact
    (posting : Posting)
    (hSpread : Spread kept credit posting.previous total series)
    (hFits : (total.natAbs : Int) ≤ Count.greatest)
    (hOutward : Posting.Outward total value.toInt) :
    Count.SumsExactly (posting.heldValues false series) ∧
      (value.minus (posting.held false series)).toInt =
        value.toInt - (posting.held false series).toInt := by
  have hTotal := hSpread.exactTotal_held
  have hMagnitude := hSpread.magnitude_held
  have hBound := Count.natAbs_exactTotal_le
    (posting.heldValues false series)
  have hLeast := Count.least_le_toInt value
  have hGreatest := Count.toInt_le_greatest value
  have hHeldFits :
      (Count.magnitude (posting.heldValues false series) : Int) ≤
        Count.greatest := by
    omega
  have hHeld := Posting.toInt_held hHeldFits
  refine ⟨Count.sumsExactly_of_magnitude hHeldFits, ?_⟩
  -- What is held has the sign of the total, so the difference
  -- stays between the value and zero.
  unfold Posting.Outward at hOutward
  unfold Count.minus
  rw [Count.toInt_clamp_of_mem]
  · simp only [Count.least] at hLeast ⊢
    omega
  · simp only [Count.greatest] at hGreatest ⊢
    omega

/- The credits after a read. -/
def credited
    (posting : Posting)
    (value : Count)
    (series : List Series)
    (credit : UnitId → Option Count)
    (unit : UnitId) : Option Count :=
  if unit = posting.unit then
    some (value.minus (posting.held false series))
  else
    credit unit

/- A read credits its unit with the increase of the total. -/
theorem worth_credited
    (posting : Posting)
    (hSpread : Spread kept credit posting.previous total series)
    (hFits : (total.natAbs : Int) ≤ Count.greatest)
    (hOutward : Posting.Outward total value.toInt)
    (unit : UnitId) :
    worth (credited posting value series credit unit) =
      worth (credit unit) +
        if posting.unit = unit then value.toInt - total else 0 := by
  have hTotal := hSpread.exactTotal_held
  rcases hSpread.exact posting hFits hOutward with ⟨hExact, hMinus⟩
  have hHeld :
      (posting.held false series).toInt =
        Count.exactTotal (posting.heldValues false series) :=
    hExact _ (List.prefix_refl _)
  rw [credited]
  by_cases hUnit : unit = posting.unit
  · rw [if_pos hUnit, if_pos hUnit.symm, worth_some, hMinus,
      hHeld, hUnit]
    omega
  · rw [if_neg hUnit, if_neg (Ne.symm hUnit), Int.add_zero]

/-
  A sum over the temporary entries after a read: the one of
  its unit and those of the units carried forward.
-/
theorem sum_read
    {M : Type}
    [AddCommMonoid M]
    (hSpread : Spread kept credit posting.previous total series)
    (hTemporary : posting.permanent = false)
    (value : Count)
    (f : Int → M)
    (hZero : f 0 = 0) :
    ((posting.read value series).map fun one =>
        f (one.share false posting.instant)).sum =
      f (value.minus (posting.held false series)).toInt +
        ((posting.heldValues false series).map fun held =>
          f held.toInt).sum := by
  have hOthers :
      ((others posting.unit series).map fun one =>
          f ((one.carry posting.previous posting.instant).share
            false posting.instant)) =
        (others posting.unit series).map fun one =>
          f (one.share false posting.previous) := by
    apply List.map_congr_left
    intro one hOne
    rw [Series.share_carry_temporary
      (hSpread.current (mem_of_mem_others hOne))]
  rw [Posting.read_eq,
    Posting.sum_place (Posting.unit_settle _ _ _ _)
      hSpread.distinct
      (fun one => f (one.share false posting.instant)) hZero,
    hOthers, Posting.sum_heldValues _ _ _ f hZero,
    Posting.settle, Series.share_push]
  simp [Posting.entry, Posting.credit, hTemporary]

/- A read of a value further out spreads that value. -/
theorem read
    (posting : Posting)
    (hSpread : Spread kept credit posting.previous total series)
    (hFits : (total.natAbs : Int) ≤ Count.greatest)
    (hOutward : Posting.Outward total value.toInt)
    (hTemporary : posting.permanent = false) :
    Spread kept (credited posting value series credit)
      posting.instant value.toInt (posting.read value series) := by
  have hTotal := hSpread.exactTotal_held
  have hMagnitude := hSpread.magnitude_held
  have hWorth :=
    hSpread.worth_credited posting hFits hOutward posting.unit
  rw [credited, if_pos rfl, if_pos rfl, worth_some] at hWorth
  have hBound := Count.natAbs_exactTotal_le
    (posting.heldValues false series)
  -- The new credit and what the others hold telescope: the old
  -- total cancels and only the new value is left.
  constructor
  case distinct =>
    rw [Posting.read_eq]
    exact Posting.distinct_place (Posting.unit_settle _ _ _ _)
      hSpread.distinct
  case permanent => exact hSpread.permanent
  case holds =>
    intro unit
    have hHolds := hSpread.holds unit
    rw [Posting.read_eq, Posting.onUnit_place (Posting.unit_settle _ _ _ _),
      Posting.moved, unit_onUnit, credited]
    split
    · rw [Posting.settle, Posting.entry, hTemporary]
      exact hHolds.purge_push (hSpread.permanent unit) _ _
    · exact hHolds.carry (hSpread.permanent unit) _
  case sum =>
    have hSum := hSpread.sum_read hTemporary value id rfl
    rw [Count.sum_map_id, id, hWorth] at hSum
    refine hSum.trans ?_
    omega
  case magnitude =>
    have hSum := hSpread.sum_read hTemporary value Int.natAbs rfl
    unfold Posting.Outward at hOutward
    rw [Count.sum_map_natAbs, hWorth] at hSum
    rw [hSum]
    omega

end Spread

end EventSeries

end CoreTally
