import CoreTally.Metric.Entry
import CoreTally.Proofs.CountSums

/-
  Normal forms of the operations on one series. Whatever is
  stored, a series keeps what a purge would leave and gets at
  most one entry behind it.

  Key definitions include:
    * `Series.Ending`
    * `Series.carried`
    * `Series.permanents`

  Key theorems include:
    * `Series.overwrite_eq`
    * `Series.accumulate_eq`
    * `Series.permanents_purge`
    * `Series.permanents_carry`
-/

namespace CoreTally

namespace Series

------------------------------------------------------------
-- Endings
------------------------------------------------------------

/- The ways in which a series can end. -/
inductive Ending : Series → Prop where
| empty
    (unit : UnitId) :
    Ending ⟨unit, []⟩
| permanent
    (unit : UnitId)
    (init : List Entry)
    (last : Entry)
    (hPermanent : last.permanent = true) :
    Ending ⟨unit, init ++ [last]⟩
| temporary
    (unit : UnitId)
    (init : List Entry)
    (last : Entry)
    (hTemporary : last.permanent = false) :
    Ending ⟨unit, init ++ [last]⟩

/- Every series ends in one of these ways. -/
theorem ending
    (series : Series) :
    series.Ending := by
  rcases series with ⟨unit, entries⟩
  rcases List.eq_nil_or_concat entries with rfl | ⟨init, last, rfl⟩
  · exact .empty unit
  · rw [List.concat_eq_append]
    cases hLast : last.permanent with
    | true => exact .permanent unit init last hLast
    | false => exact .temporary unit init last hLast

variable (unit : UnitId)
variable (init : List Entry)
variable (last : Entry)

@[simp] theorem last?_nil :
    last? ⟨unit, []⟩ = none := rfl

@[simp] theorem last?_concat :
    last? ⟨unit, init ++ [last]⟩ = some last := by
  simp [last?]

@[simp] theorem liveAt?_nil
    (instant : Instant) :
    liveAt? ⟨unit, []⟩ instant = none := rfl

@[simp] theorem liveAt?_concat
    (instant : Instant) :
    liveAt? ⟨unit, init ++ [last]⟩ instant =
      if last.instant = instant then some last else none := by
  rw [liveAt?, last?_concat, Option.filter_some]
  simp

@[simp] theorem purge_nil :
    purge ⟨unit, []⟩ = ⟨unit, []⟩ := rfl

theorem purge_of_permanent
    (hPermanent : last.permanent = true) :
    purge ⟨unit, init ++ [last]⟩ =
      ⟨unit, init ++ [last]⟩ := by
  simp [purge, hPermanent]

theorem purge_of_temporary
    (hTemporary : last.permanent = false) :
    purge ⟨unit, init ++ [last]⟩ = ⟨unit, init⟩ := by
  simp [purge, hTemporary]

@[simp] theorem carry_nil
    (previous next : Instant) :
    carry previous next ⟨unit, []⟩ = ⟨unit, []⟩ := rfl

theorem carry_of_permanent
    (previous next : Instant)
    (hPermanent : last.permanent = true) :
    carry previous next ⟨unit, init ++ [last]⟩ =
      ⟨unit, init ++ [last]⟩ := by
  unfold carry
  by_cases hLive : last.instant = previous <;>
    simp [hPermanent, hLive]

theorem carry_of_temporary
    (previous next : Instant)
    (hTemporary : last.permanent = false) :
    carry previous next ⟨unit, init ++ [last]⟩ =
      if last.instant = previous then
        ⟨unit, init ++ [{ last with instant := next }]⟩
      else
        ⟨unit, init ++ [last]⟩ := by
  unfold carry
  by_cases hLive : last.instant = previous <;>
    simp [replaceLast, hTemporary, hLive]

------------------------------------------------------------
-- Units
------------------------------------------------------------

@[simp] theorem unit_push
    (series : Series)
    (entry : Entry) :
    (series.push entry).unit = series.unit := rfl

@[simp] theorem unit_purge
    (series : Series) :
    series.purge.unit = series.unit := by
  cases series.ending with
  | empty unit => rfl
  | permanent unit init last h => rw [purge_of_permanent _ _ _ h]
  | temporary unit init last h => rw [purge_of_temporary _ _ _ h]

@[simp] theorem unit_carry
    (previous next : Instant)
    (series : Series) :
    (series.carry previous next).unit = series.unit := by
  cases series.ending with
  | empty unit => rfl
  | permanent unit init last h =>
      rw [carry_of_permanent _ _ _ _ _ h]
  | temporary unit init last h =>
      rw [carry_of_temporary _ _ _ _ _ h]
      split <;> rfl

------------------------------------------------------------
-- Normal Forms
------------------------------------------------------------

/- What a reading that counts on takes over from a series. -/
def carried
    (previous : Instant)
    (series : Series) : Count :=
  match series.last? with
  | none => 0
  | some last =>
      if last.permanent = false ∨ last.instant = previous then
        last.value
      else
        0

/- A plain reading follows what a purge leaves. -/
theorem overwrite_eq
    (entry : Entry)
    (series : Series) :
    series.overwrite entry = series.purge.push entry := by
  cases series.ending with
  | empty unit => rfl
  | permanent unit init last h =>
      rw [purge_of_permanent _ _ _ h]
      simp [overwrite, h]
  | temporary unit init last h =>
      rw [purge_of_temporary _ _ _ h]
      simp [overwrite, replaceLast, push, h]

/-
  A reading that counts on follows what a purge leaves, too,
  and takes over what the series carries.
-/
theorem accumulate_eq
    (previous : Instant)
    (entry : Entry)
    (series : Series) :
    series.accumulate previous entry =
      series.purge.push
        { entry with
          value := entry.value.plus (series.carried previous) } := by
  cases series.ending with
  | empty unit => simp [accumulate, carried]
  | permanent unit init last h =>
      rw [purge_of_permanent _ _ _ h]
      by_cases hLive : last.instant = previous <;>
        simp [accumulate, carried, h, hLive]
  | temporary unit init last h =>
      rw [purge_of_temporary _ _ _ h, Count.plus_comm]
      simp [accumulate, carried, replaceLast, push, h]

------------------------------------------------------------
-- Permanent Entries
------------------------------------------------------------

/- The entries that are kept for good. -/
def permanents (series : Series) : List Entry :=
  series.entries.filter Entry.permanent

/- A purge drops no permanent entry. -/
@[simp] theorem permanents_purge
    (series : Series) :
    series.purge.permanents = series.permanents := by
  cases series.ending with
  | empty unit => rfl
  | permanent unit init last h => rw [purge_of_permanent _ _ _ h]
  | temporary unit init last h =>
      rw [purge_of_temporary _ _ _ h]
      simp [permanents, h]

/- Carrying a series forward keeps its permanent entries. -/
@[simp] theorem permanents_carry
    (previous next : Instant)
    (series : Series) :
    (series.carry previous next).permanents =
      series.permanents := by
  cases series.ending with
  | empty unit => rfl
  | permanent unit init last h =>
      rw [carry_of_permanent _ _ _ _ _ h]
  | temporary unit init last h =>
      rw [carry_of_temporary _ _ _ _ _ h]
      split
      · simp [permanents, h]
      · rfl

/- A new entry comes after the permanent ones. -/
theorem permanents_prefix_push
    (series : Series)
    (entry : Entry) :
    series.permanents <+: (series.push entry).permanents := by
  rw [permanents, permanents, push, List.filter_append]
  exact List.prefix_append _ _

end Series

end CoreTally
