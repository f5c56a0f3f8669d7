import CoreTally.Metric.Ledger
import CoreTally.Proofs.Metric.EventSeries
import Mathlib.Data.List.Nodup

/-
  The effect of one posting on the series of its event, in one
  form for both modes: the reporting unit gets one entry behind
  what a purge of its series would leave, and every other unit
  is carried forward.

  Key definitions include:
    * `Posting.Mode`
    * `Posting.change`
    * `Posting.heldValues`
    * `Posting.credit`
    * `Posting.settle`

  Key theorems include:
    * `Posting.change_eq`
    * `Posting.onUnit_place`
    * `Posting.others_place`
    * `Posting.toInt_held`
-/

namespace CoreTally

namespace Posting

open EventSeries

------------------------------------------------------------
-- Credits
------------------------------------------------------------

/- The values of a posting are cumulative, or they are deltas. -/
inductive Mode where
| read
| accumulate
deriving DecidableEq, Repr

/- Store a value among the series of its event. -/
def change
    (posting : Posting) :
    Mode → Count → List Series → List Series
| .read => posting.read
| .accumulate => posting.accumulate

/- The values that other units hold at the previous instant. -/
def heldValues
    (posting : Posting)
    (permanent : Bool)
    (series : List Series) : List Count :=
  series.filterMap fun s =>
    if s.unit = posting.unit then
      none
    else
      match s.liveAt? posting.previous with
      | none => none
      | some last =>
          if last.permanent = permanent then some last.value else none

theorem held_eq
    (posting : Posting)
    (permanent : Bool)
    (series : List Series) :
    posting.held permanent series =
      Count.total (posting.heldValues permanent series) := rfl

/- The value of the entry that the reporting unit gets. -/
def credit
    (posting : Posting)
    (value : Count)
    (series : List Series)
    (own : Series) : Mode → Count
| .read => value.minus (posting.held false series)
| .accumulate =>
    (value.plus (posting.held true series)).plus
      (own.carried posting.previous)

/- The series of the reporting unit with its new entry. -/
def settle
    (posting : Posting)
    (mode : Mode)
    (value : Count)
    (series : List Series)
    (own : Series) : Series :=
  own.purge.push
    (posting.entry (posting.credit value series own mode))

@[simp] theorem unit_settle
    (posting : Posting)
    (mode : Mode)
    (value : Count)
    (series : List Series)
    (own : Series) :
    (posting.settle mode value series own).unit = own.unit := by
  simp [settle]

/- Both modes settle the series of the reporting unit. -/
theorem change_eq
    (posting : Posting)
    (mode : Mode)
    (value : Count)
    (series : List Series) :
    posting.change mode value series =
      posting.place (posting.settle mode value series) series := by
  cases mode with
  | read =>
      have hOwn :
          Series.overwrite
              (posting.entry
                (value.minus (posting.held false series))) =
            posting.settle .read value series := by
        funext own
        exact Series.overwrite_eq _ own
      rw [change, read, hOwn]
  | accumulate =>
      have hOwn :
          Series.accumulate posting.previous
              (posting.entry
                (value.plus (posting.held true series))) =
            posting.settle .accumulate value series := by
        funext own
        exact Series.accumulate_eq _ _ own
      rw [change, accumulate, hOwn]

theorem read_eq
    (posting : Posting)
    (value : Count)
    (series : List Series) :
    posting.read value series =
      posting.place (posting.settle .read value series) series :=
  change_eq posting .read value series

theorem accumulate_eq
    (posting : Posting)
    (value : Count)
    (series : List Series) :
    posting.accumulate value series =
      posting.place
        (posting.settle .accumulate value series) series :=
  change_eq posting .accumulate value series

------------------------------------------------------------
-- Placing
------------------------------------------------------------

variable {posting : Posting}
variable {own : Series → Series}
variable {series : List Series}

/- A series after a posting that changes those of its unit. -/
def moved
    (posting : Posting)
    (own : Series → Series)
    (one : Series) : Series :=
  if one.unit = posting.unit then
    own one
  else
    one.carry posting.previous posting.instant

theorem unit_moved
    (hOwn : ∀ one, (own one).unit = one.unit)
    (one : Series) :
    (posting.moved own one).unit = one.unit := by
  rw [moved]
  split
  · exact hOwn one
  · exact Series.unit_carry _ _ one

/- A posting changes every series, or adds one at the end. -/
theorem place_eq
    (posting : Posting)
    (own : Series → Series)
    (series : List Series) :
    posting.place own series =
      if posting.unit ∈ series.map Series.unit then
        series.map (posting.moved own)
      else
        series.map (posting.moved own) ++
          [own ⟨posting.unit, []⟩] := by
  have hAny :
      series.any (·.unit == posting.unit) = true ↔
        posting.unit ∈ series.map Series.unit := by
    simp
  unfold place moved
  by_cases hPresent : posting.unit ∈ series.map Series.unit
  · rw [if_pos hPresent, if_pos (hAny.mpr hPresent)]
  · rw [if_neg hPresent, if_neg (mt hAny.mp hPresent)]

/- A posting changes nothing but the series of its unit. -/
theorem place_congr
    {own' : Series → Series}
    (hDistinct : Distinct series)
    (hSame :
      own (onUnit posting.unit series) =
        own' (onUnit posting.unit series)) :
    posting.place own series = posting.place own' series := by
  have hMoved :
      series.map (posting.moved own) =
        series.map (posting.moved own') := by
    apply List.map_congr_left
    intro one hOne
    unfold moved
    split
    · rename_i hUnit
      have hOwn := onUnit_of_mem hDistinct hOne
      rw [hUnit] at hOwn
      rwa [hOwn] at hSame
    · rfl
  rw [place_eq, place_eq, hMoved]
  split
  · rfl
  · rename_i hAbsent
    rw [onUnit_of_notMem hAbsent] at hSame
    rw [hSame]

/- The units keep their order, and a new one comes last. -/
theorem units_place
    (hOwn : ∀ one, (own one).unit = one.unit)
    (series : List Series) :
    (posting.place own series).map Series.unit =
      if posting.unit ∈ series.map Series.unit then
        series.map Series.unit
      else
        series.map Series.unit ++ [posting.unit] := by
  have hMoved :
      (series.map (posting.moved own)).map Series.unit =
        series.map Series.unit := by
    rw [List.map_map]
    exact List.map_congr_left fun one _ => unit_moved hOwn one
  rw [place_eq]
  split
  · exact hMoved
  · rw [List.map_append, hMoved, List.map_singleton, hOwn]

theorem distinct_place
    (hOwn : ∀ one, (own one).unit = one.unit)
    (hDistinct : Distinct series) :
    Distinct (posting.place own series) := by
  rw [Distinct, units_place hOwn]
  split
  · exact hDistinct
  · rename_i hAbsent
    apply List.nodup_append.mpr
    refine ⟨hDistinct, List.nodup_singleton _, ?_⟩
    intro unit hUnit other hOther hSame
    rw [List.mem_singleton.mp hOther] at hSame
    exact hAbsent (hSame ▸ hUnit)

/- A posting changes the series of every unit on its own. -/
theorem onUnit_place
    (hOwn : ∀ one, (own one).unit = one.unit)
    (unit : UnitId)
    (series : List Series) :
    onUnit unit (posting.place own series) =
      posting.moved own (onUnit unit series) := by
  have hMap :
      onUnit unit (series.map (posting.moved own)) =
        if unit ∈ series.map Series.unit then
          posting.moved own (onUnit unit series)
        else
          ⟨unit, []⟩ := by
    induction series with
    | nil => rfl
    | cons head series ih =>
        rw [List.map_cons, onUnit_cons, onUnit_cons,
          unit_moved hOwn, ih]
        by_cases hHead : head.unit = unit
        · simp [hHead]
        · simp [hHead, Ne.symm hHead]
  have hUnits :
      (series.map (posting.moved own)).map Series.unit =
        series.map Series.unit := by
    rw [List.map_map]
    exact List.map_congr_left fun one _ => unit_moved hOwn one
  by_cases hListed : unit ∈ series.map Series.unit
  · rw [if_pos hListed] at hMap
    rw [place_eq]
    split
    · exact hMap
    · rw [onUnit_append, hUnits, if_pos hListed, hMap]
  · rw [if_neg hListed] at hMap
    rw [onUnit_of_notMem hListed, place_eq, moved]
    by_cases hUnit : unit = posting.unit
    · subst hUnit
      rw [if_neg hListed, onUnit_append, hUnits,
        if_neg hListed, onUnit_cons, hOwn]
      simp
    · have hNone :
          onUnit unit [own ⟨posting.unit, []⟩] =
            ⟨unit, []⟩ := by
        rw [onUnit_cons, hOwn, if_neg (Ne.symm hUnit)]
        rfl
      rw [if_neg hUnit, Series.carry_nil]
      split
      · exact hMap
      · rw [onUnit_append, hUnits, if_neg hListed, hNone]

/- All other units are carried forward, in their order. -/
theorem others_place
    (hOwn : ∀ one, (own one).unit = one.unit)
    (series : List Series) :
    others posting.unit (posting.place own series) =
      (others posting.unit series).map
        (Series.carry posting.previous posting.instant) := by
  have hMap :
      others posting.unit (series.map (posting.moved own)) =
        (others posting.unit series).map
          (Series.carry posting.previous posting.instant) := by
    induction series with
    | nil => rfl
    | cons head series ih =>
        rw [List.map_cons, others_cons, others_cons,
          unit_moved hOwn, ih]
        by_cases hHead : head.unit = posting.unit
        · rw [if_pos hHead, if_pos hHead]
        · rw [if_neg hHead, if_neg hHead, List.map_cons, moved,
            if_neg hHead]
  have hNew :
      others posting.unit [own ⟨posting.unit, []⟩] = [] := by
    rw [others_cons, hOwn, if_pos rfl]
    rfl
  rw [place_eq]
  split
  · exact hMap
  · rw [others_append, hMap, hNew, List.append_nil]

/- Every series after a posting is a changed old or new one. -/
theorem exists_of_mem_place
    {one : Series}
    (hMem : one ∈ posting.place own series) :
    (∃ old ∈ series, one = posting.moved own old) ∨
      one = own ⟨posting.unit, []⟩ := by
  rw [place_eq] at hMem
  split at hMem
  · rcases List.mem_map.mp hMem with ⟨old, hListed, rfl⟩
    exact .inl ⟨old, hListed, rfl⟩
  · rcases List.mem_append.mp hMem with hOld | hNew
    · rcases List.mem_map.mp hOld with ⟨old, hListed, rfl⟩
      exact .inl ⟨old, hListed, rfl⟩
    · exact .inr (List.mem_singleton.mp hNew)

/-
  A sum over the series after a posting is the part of the
  reporting unit and those of the units carried forward.
-/
theorem sum_place
    {M : Type}
    [AddCommMonoid M]
    (hOwn : ∀ one, (own one).unit = one.unit)
    (hDistinct : Distinct series)
    (f : Series → M)
    (hEmpty : f ⟨posting.unit, []⟩ = 0) :
    ((posting.place own series).map f).sum =
      f (own (onUnit posting.unit series)) +
        ((others posting.unit series).map fun one =>
          f (one.carry posting.previous posting.instant)).sum := by
  have hPlace : Distinct (posting.place own series) :=
    distinct_place hOwn hDistinct
  rw [sum_eq_onUnit_add_others hPlace f hEmpty,
    onUnit_place hOwn, others_place hOwn, List.map_map, moved,
    if_pos (unit_onUnit _ _)]
  rfl

------------------------------------------------------------
-- Held Values
------------------------------------------------------------

/- Sums over the held values are sums over the other units. -/
theorem sum_heldValues
    {M : Type}
    [AddCommMonoid M]
    (posting : Posting)
    (permanent : Bool)
    (series : List Series)
    (f : Int → M)
    (hZero : f 0 = 0) :
    ((posting.heldValues permanent series).map
        fun value => f value.toInt).sum =
      ((others posting.unit series).map fun one =>
        f (one.share permanent posting.previous)).sum := by
  induction series with
  | nil => rfl
  | cons head series ih =>
      rw [heldValues, List.filterMap_cons, ← heldValues,
        others_cons]
      by_cases hHead : head.unit = posting.unit
      · rw [if_pos hHead, if_pos hHead]
        exact ih
      · rw [if_neg hHead, if_neg hHead, List.map_cons,
          List.sum_cons, ← ih, Series.share]
        cases head.liveAt? posting.previous with
        | none => simp [hZero]
        | some last =>
            by_cases h : last.permanent = permanent <;>
              simp [h, hZero]

/- The magnitude of what other units hold. -/
theorem magnitude_heldValues
    (posting : Posting)
    (permanent : Bool)
    (series : List Series) :
    Count.magnitude (posting.heldValues permanent series) =
      ((others posting.unit series).map fun one =>
        (one.share permanent posting.previous).natAbs).sum :=
  sum_heldValues posting permanent series Int.natAbs rfl

/- What other units hold, without saturation. -/
theorem exactTotal_heldValues
    (posting : Posting)
    (permanent : Bool)
    (series : List Series) :
    Count.exactTotal (posting.heldValues permanent series) =
      ((others posting.unit series).map
        (Series.share permanent posting.previous)).sum :=
  sum_heldValues posting permanent series id rfl

/- What other units hold is summed up exactly if it fits. -/
theorem toInt_held
    {permanent : Bool}
    (hFits :
      (Count.magnitude (posting.heldValues permanent series) : Int) ≤
        Count.greatest) :
    (posting.held permanent series).toInt =
      Count.exactTotal (posting.heldValues permanent series) := by
  rw [held_eq, Count.toInt_total hFits]

end Posting

end CoreTally
