import CoreTally.Metric.Store
import CoreTally.Proofs.Metric.SeriesTime
import Mathlib.Algebra.BigOperators.Group.List.Basic

/-
  The series of one event, seen from one unit: its own series
  and those of all other units. Sums over the series of an
  event split the same way, because every unit has at most
  one of them.

  Key definitions include:
    * `EventSeries.Distinct`
    * `EventSeries.onUnit`
    * `EventSeries.others`
    * `EventSeries.survivors`

  Key theorems include:
    * `EventSeries.sum_eq_onUnit_add_others`
    * `EventSeries.onUnit_survivors`
-/

namespace CoreTally

namespace EventSeries

/- No two series belong to the same unit. -/
def Distinct (series : List Series) : Prop :=
  (series.map Series.unit).Nodup

/- The series of a unit, an empty one where it has none. -/
def onUnit
    (unit : UnitId)
    (series : List Series) : Series :=
  (series.find? (·.unit == unit)).getD ⟨unit, []⟩

/- The series of all other units. -/
def others
    (unit : UnitId)
    (series : List Series) : List Series :=
  series.filter (·.unit != unit)

/- The series that a purge leaves behind. -/
def survivors (series : List Series) : List Series :=
  (series.filter (!Store.isEmptied ·)).map Series.purge

------------------------------------------------------------
-- The Series of a Unit
------------------------------------------------------------

@[simp] theorem onUnit_nil
    (unit : UnitId) :
    onUnit unit [] = ⟨unit, []⟩ := rfl

theorem onUnit_cons
    (unit : UnitId)
    (head : Series)
    (series : List Series) :
    onUnit unit (head :: series) =
      if head.unit = unit then head else onUnit unit series := by
  by_cases h : head.unit = unit <;> simp [onUnit, h]

@[simp] theorem unit_onUnit
    (unit : UnitId)
    (series : List Series) :
    (onUnit unit series).unit = unit := by
  induction series with
  | nil => rfl
  | cons head series ih =>
      rw [onUnit_cons]
      split
      · assumption
      · exact ih

/- A unit without series has an empty one. -/
theorem onUnit_of_notMem
    {unit : UnitId}
    {series : List Series}
    (hAbsent : unit ∉ series.map Series.unit) :
    onUnit unit series = ⟨unit, []⟩ := by
  induction series with
  | nil => rfl
  | cons head series ih =>
      rw [List.map_cons, List.mem_cons, not_or] at hAbsent
      rw [onUnit_cons, if_neg (Ne.symm hAbsent.1)]
      exact ih hAbsent.2

/- A unit with a series has it listed. -/
theorem onUnit_mem
    {unit : UnitId}
    {series : List Series}
    (hPresent : unit ∈ series.map Series.unit) :
    onUnit unit series ∈ series := by
  induction series with
  | nil => simp at hPresent
  | cons head series ih =>
      rw [onUnit_cons]
      split
      · exact List.mem_cons_self
      · rename_i hHead
        rw [List.map_cons, List.mem_cons] at hPresent
        exact List.mem_cons_of_mem _
          (ih (hPresent.resolve_left (Ne.symm hHead)))

/- Every listed series is the one of its unit. -/
theorem onUnit_of_mem
    {series : List Series}
    (hDistinct : Distinct series)
    {one : Series}
    (hMem : one ∈ series) :
    onUnit one.unit series = one := by
  induction series with
  | nil => simp at hMem
  | cons head series ih =>
      rcases List.nodup_cons.mp hDistinct with ⟨hHead, hRest⟩
      rw [onUnit_cons]
      rcases List.mem_cons.mp hMem with rfl | hMem
      · exact if_pos rfl
      · have hOther : head.unit ≠ one.unit :=
          (ne_of_mem_of_not_mem
            (List.mem_map_of_mem hMem) hHead).symm
        rw [if_neg hOther]
        exact ih hRest hMem

/- Series further back count for units not seen before. -/
theorem onUnit_append
    (unit : UnitId)
    (front back : List Series) :
    onUnit unit (front ++ back) =
      if unit ∈ front.map Series.unit then
        onUnit unit front
      else
        onUnit unit back := by
  induction front with
  | nil => rfl
  | cons head front ih =>
      rw [List.cons_append, onUnit_cons, onUnit_cons, ih]
      by_cases hHead : head.unit = unit
      · simp [hHead]
      · simp [hHead, Ne.symm hHead]

/- The series of other units are listed, too. -/
theorem mem_of_mem_others
    {unit : UnitId}
    {series : List Series}
    {one : Series}
    (hMem : one ∈ others unit series) :
    one ∈ series :=
  List.mem_of_mem_filter hMem

theorem others_cons
    (unit : UnitId)
    (head : Series)
    (series : List Series) :
    others unit (head :: series) =
      if head.unit = unit then
        others unit series
      else
        head :: others unit series := by
  by_cases h : head.unit = unit <;> simp [others, h]

theorem others_append
    (unit : UnitId)
    (front back : List Series) :
    others unit (front ++ back) =
      others unit front ++ others unit back :=
  List.filter_append front back

/- Without a series of the unit, all series are of others. -/
theorem others_of_notMem
    {unit : UnitId}
    {series : List Series}
    (hAbsent : unit ∉ series.map Series.unit) :
    others unit series = series := by
  apply List.filter_eq_self.mpr
  intro one hOne
  have hOther : one.unit ≠ unit :=
    ne_of_mem_of_not_mem (List.mem_map_of_mem hOne) hAbsent
  simpa using hOther

------------------------------------------------------------
-- Sums
------------------------------------------------------------

variable {M : Type}
variable [AddCommMonoid M]

/-
  A sum over the series of an event is the part of one unit
  and the parts of all others, if empty series add nothing.
-/
theorem sum_eq_onUnit_add_others
    {unit : UnitId}
    {series : List Series}
    (hDistinct : Distinct series)
    (f : Series → M)
    (hEmpty : f ⟨unit, []⟩ = 0) :
    (series.map f).sum =
      f (onUnit unit series) +
        ((others unit series).map f).sum := by
  induction series with
  | nil => simp [others, hEmpty]
  | cons head series ih =>
      rcases List.nodup_cons.mp hDistinct with ⟨hHead, hRest⟩
      rw [onUnit_cons, others_cons, List.map_cons, List.sum_cons]
      by_cases hUnit : head.unit = unit
      · rw [if_pos hUnit, if_pos hUnit, others_of_notMem]
        rwa [← hUnit]
      · rw [if_neg hUnit, if_neg hUnit, List.map_cons,
          List.sum_cons, ih hRest, add_left_comm]

------------------------------------------------------------
-- Survivors
------------------------------------------------------------

/- An event is kept by a purge if any series survives. -/
theorem purgeSeries?_eq
    (series : List Series) :
    Store.purgeSeries? series =
      if survivors series = [] then
        none
      else
        some (survivors series) := by
  unfold Store.purgeSeries?
  rw [← survivors]
  cases survivors series <;> rfl

/- The units of the surviving series, in their old order. -/
theorem units_survivors
    (series : List Series) :
    (survivors series).map Series.unit =
      (series.filter (!Store.isEmptied ·)).map Series.unit := by
  rw [survivors, List.map_map]
  exact List.map_congr_left fun one _ => Series.unit_purge one

theorem units_survivors_sublist
    (series : List Series) :
    ((survivors series).map Series.unit).Sublist
      (series.map Series.unit) := by
  rw [units_survivors]
  exact List.filter_sublist.map _

theorem Distinct.survivors
    {series : List Series}
    (hDistinct : Distinct series) :
    Distinct (survivors series) :=
  List.Nodup.sublist (units_survivors_sublist series) hDistinct

/- A surviving series is what a purge leaves of an old one. -/
theorem exists_of_mem_survivors
    {series : List Series}
    {one : Series}
    (hMem : one ∈ survivors series) :
    ∃ old ∈ series, one = old.purge ∧ one.entries ≠ [] := by
  rcases List.mem_map.mp hMem with ⟨old, hOld, rfl⟩
  rcases List.mem_filter.mp hOld with ⟨hListed, hKept⟩
  refine ⟨old, hListed, rfl, ?_⟩
  simpa [Store.isEmptied] using hKept

/- A purge of an event purges the series of every unit. -/
theorem onUnit_survivors
    {series : List Series}
    (hDistinct : Distinct series)
    (unit : UnitId) :
    onUnit unit (survivors series) =
      (onUnit unit series).purge := by
  induction series with
  | nil => rfl
  | cons head series ih =>
      rcases List.nodup_cons.mp hDistinct with ⟨hHead, hRest⟩
      rw [onUnit_cons]
      cases hEmptied : Store.isEmptied head with
      | true =>
          have hSkip :
              survivors (head :: series) = survivors series := by
            simp [survivors, hEmptied]
          rw [hSkip, ih hRest]
          split
          · rename_i hUnit
            have hPurged : head.purge.entries = [] := by
              simpa [Store.isEmptied] using hEmptied
            rw [onUnit_of_notMem (hUnit ▸ hHead), Series.purge_nil,
              ← hUnit, ← hPurged, ← Series.unit_purge head]
          · rfl
      | false =>
          have hKeep :
              survivors (head :: series) =
                head.purge :: survivors series := by
            simp [survivors, hEmptied]
          rw [hKeep, onUnit_cons, Series.unit_purge, ih hRest]
          split <;> rfl

end EventSeries

end CoreTally
