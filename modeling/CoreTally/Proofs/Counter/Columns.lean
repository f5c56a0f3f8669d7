import CoreTally.Proofs.Counter.Trace
import Mathlib.Logic.Equiv.Defs

/-
  An event set with its codes in one list and its counts in another
  one. As long as both have one length, this is the same as a list
  of counters, and whatever is done to an event set can be done to
  the two lists. It keeps them at one length.

  Key definitions include:
    * `Columns`
    * `Columns.Aligned`
    * `Columns.after`
    * `Columns.replay`
    * `SimulatedSet.columns`
    * `SimulatedSet.equivColumns`

  Key theorems include:
    * `Simulated.Operation.Alters.columns_eq`
    * `Columns.aligned_replay`
    * `Simulated.columns_follow_log`
-/

namespace CoreTally

------------------------------------------------------------
-- Two Lists
------------------------------------------------------------

/- An event set: its codes and its counts beside each other. -/
structure Columns where
  events : List EventCode
  counters : List Count
  running : Bool
  binding : UnitBinding
deriving DecidableEq, Repr

namespace Columns

/- There is one count for each code. -/
def Aligned (columns : Columns) : Prop :=
  columns.events.length = columns.counters.length

/- No codes and no counts, on processor 0. -/
def empty : Columns where
  events := []
  counters := []
  running := false
  binding := .cpu 0

/- All counts at zero. -/
def zeroed (columns : Columns) : Columns :=
  { columns with counters := columns.counters.map fun _ => 0 }

/- One more code, with a count of its own. -/
def push (columns : Columns) (code : EventCode) : Columns :=
  { columns with
    events := columns.events ++ [code]
    counters := columns.counters ++ [0] }

/- Add gains to counts, from the first on, as long as there are. -/
def gain : List Count → List Count → List Count
| count :: counts, more :: gains => count.plus more :: gain counts gains
| counts, _ => counts

/- The counts after some work. A stopped set counts nothing. -/
def worked
    (columns : Columns)
    (weight : EventCode → Count)
    (work : Count) : Columns :=
  if columns.running then
    { columns with
      counters :=
        gain columns.counters
          ((columns.events.map weight).map work.times) }
  else
    columns

/- What an operation that was carried out has made of the lists. -/
def after
    (columns : Columns)
    (weight : EventCode → Count)
    (done : Simulated.Done) : Columns :=
  match done.operation, done.answer with
  | .addEvent _ code, _ | .addRawEvent _ code, _ =>
      columns.push code
  | .addNamedEvent _ _, .code code => columns.push code
  | .setBinding _ binding, _ => { columns with binding }
  | .migrate _ unit, _ => { columns with binding := .cpu unit }
  | .execute _ work, _ =>
      match Count.ofWork? work with
      | none => columns
      | some count => columns.worked weight count
  | .start _, _ => { columns.zeroed with running := true }
  | .accumulate _, _ | .reset _, _ => columns.zeroed
  | .stop _, _ => { columns with running := false }
  | _, _ => columns

variable {columns : Columns}

theorem Aligned.zeroed
    (hAligned : columns.Aligned) :
    columns.zeroed.Aligned := by
  simpa [Aligned, Columns.zeroed] using hAligned

theorem Aligned.push
    (hAligned : columns.Aligned)
    (code : EventCode) :
    (columns.push code).Aligned := by
  simpa [Aligned, Columns.push] using hAligned

theorem length_gain
    (counts gains : List Count) :
    (gain counts gains).length = counts.length := by
  fun_induction gain with
  | case1 count counts more gains ih => simp [ih]
  | case2 => rfl

theorem Aligned.worked
    (hAligned : columns.Aligned)
    (weight : EventCode → Count)
    (work : Count) :
    (columns.worked weight work).Aligned := by
  unfold Columns.worked
  split
  · simpa [Aligned, length_gain] using hAligned
  · exact hAligned

/- Whatever is done, both lists grow together. -/
theorem Aligned.after
    (hAligned : columns.Aligned)
    (weight : EventCode → Count)
    (done : Simulated.Done) :
    (columns.after weight done).Aligned := by
  unfold Columns.after
  split
  · exact hAligned.push _
  · exact hAligned.push _
  · exact hAligned.push _
  · exact hAligned
  · exact hAligned
  · split
    · exact hAligned
    · exact hAligned.worked weight _
  · exact hAligned.zeroed
  · exact hAligned.zeroed
  · exact hAligned.zeroed
  · exact hAligned
  · exact hAligned

/-
  The columns that a log tells of, the operation that was carried
  out last in front. Work counts with the weights by then.
-/
def replayed (handle : EventSet) : List Simulated.Done → Option Columns
| [] => none
| done :: past =>
    if done.creates handle then
      some .empty
    else if done.operation.set? = some handle then
      (replayed handle past).map
        (·.after (Simulated.weightIn past.reverse) done)
    else
      replayed handle past

/- The columns of an event set after what a log tells. -/
def replay
    (handle : EventSet)
    (log : List Simulated.Done) : Option Columns :=
  replayed handle log.reverse

theorem replay_concat
    (handle : EventSet)
    (log : List Simulated.Done)
    (done : Simulated.Done) :
    replay handle (log ++ [done]) =
      if done.creates handle then
        some .empty
      else if done.operation.set? = some handle then
        (replay handle log).map
          (·.after (Simulated.weightIn log) done)
      else
        replay handle log := by
  simp only [replay, List.reverse_append, List.reverse_singleton,
    List.singleton_append, replayed, List.reverse_reverse]

/- The two lists have one length after whatever is done. -/
theorem aligned_replay
    {handle : EventSet}
    {log : List Simulated.Done}
    (hReplay : replay handle log = some columns) :
    columns.Aligned := by
  induction log using List.reverseRecOn generalizing columns with
  | nil => contradiction
  | append_singleton log done ih =>
      rw [replay_concat] at hReplay
      split at hReplay
      · rw [← Option.some.inj hReplay]
        rfl
      · split at hReplay
        · rw [Option.map_eq_some_iff] at hReplay
          rcases hReplay with ⟨old, hOld, rfl⟩
          exact (ih hOld).after _ done
        · exact ih hReplay

end Columns

------------------------------------------------------------
-- Counters and Columns
------------------------------------------------------------

namespace SimulatedSet

/- The codes and the counts of the counters. -/
def columns (set : SimulatedSet) : Columns where
  events := set.codes
  counters := set.counts
  running := set.running
  binding := set.binding

theorem aligned_columns
    (set : SimulatedSet) :
    set.columns.Aligned := by
  simp [Columns.Aligned, columns, codes, counts]

/- Event sets are the same as columns of one length. -/
def equivColumns :
    SimulatedSet ≃ { columns : Columns // columns.Aligned } where
  toFun set := ⟨set.columns, set.aligned_columns⟩
  invFun columns :=
    { counters :=
        (columns.1.events.zip columns.1.counters).map
          fun cell => ⟨cell.1, cell.2⟩
      running := columns.1.running
      binding := columns.1.binding }
  left_inv set := by
    simp [columns, codes, counts, List.zip_map', List.map_map,
      Function.comp_def]
  right_inv columns := by
    have hLength := columns.2
    unfold Columns.Aligned at hLength
    apply Subtype.ext
    simp [SimulatedSet.columns, codes, counts, Function.comp_def,
      List.map_fst_zip hLength.le, List.map_snd_zip hLength.ge]

theorem columns_empty : empty.columns = Columns.empty := rfl

theorem columns_zeroed
    (set : SimulatedSet) :
    set.zeroed.columns = set.columns.zeroed := by
  simp [columns, Columns.zeroed, zeroed, codes, counts,
    Function.comp_def]

theorem columns_push
    (set : SimulatedSet)
    (code : EventCode) :
    (set.push code).columns = set.columns.push code := by
  simp [columns, Columns.push, push, codes, counts]

theorem gain_counts
    (weight : EventCode → Count)
    (work : Count)
    (counters : List Counter) :
    Columns.gain (counters.map Counter.count)
        (((counters.map Counter.code).map weight).map work.times) =
      counters.map fun counter =>
        counter.count.plus (work.times (weight counter.code)) := by
  induction counters with
  | nil => rfl
  | cons counter counters ih =>
      simp only [List.map_cons, Columns.gain, ih]

theorem columns_worked
    (set : SimulatedSet)
    (weight : EventCode → Count)
    (work : Count) :
    (set.worked weight work).columns =
      set.columns.worked weight work := by
  unfold worked Columns.worked
  cases hRunning : set.running with
  | true =>
      simp [columns, codes, counts, hRunning, Function.comp_def,
        ← gain_counts]
  | false => simp [columns, hRunning]

end SimulatedSet

------------------------------------------------------------
-- Operations
------------------------------------------------------------

namespace Simulated

variable {s s₁ : Simulated}
variable {log : List Done}
variable {handle : EventSet}
variable {operation : Operation}
variable {answer : Answer}

/- An operation does to the columns what it does to the counters. -/
theorem Operation.Alters.columns_eq
    {set altered : SimulatedSet}
    (hAlters : Alters s handle set operation answer altered) :
    altered.columns =
      set.columns.after s.weight ⟨operation, answer⟩ := by
  cases hAlters with
  | addEvent code | addNamedEvent _ event | addRawEvent code =>
      exact set.columns_push _
  | setBinding | migrate | read | stop => rfl
  | execute work count hWork =>
      rw [Columns.after, set.columns_worked]
      simp only [hWork]
  | start =>
      rw [Columns.after, ← set.columns_zeroed]
      rfl
  | accumulate | reset => exact set.columns_zeroed

/- The values that are taken are the list of counts. -/
theorem Operation.Alters.counts_eq
    {set altered : SimulatedSet}
    {values : List Count}
    (hAlters :
      Alters s handle set operation (.counts values) altered) :
    values = set.columns.counters := by
  cases hAlters <;> rfl

/-
  The event sets, as columns, are those that a log tells of, and
  so are the values that were taken.
-/
structure HasColumns
    (s : Simulated)
    (log : List Done) : Prop where
  mirrors : s.Mirrors log
  columns :
    ∀ handle,
      (s.sets.find? handle).map SimulatedSet.columns =
        Columns.replay handle log
  taken :
    ∀ past operation values,
      past ++ [⟨operation, .counts values⟩] <+: log →
        ∃ handle,
          operation.set? = some handle ∧
            (Columns.replay handle past).map Columns.counters =
              some values

theorem hasColumns_empty : empty.HasColumns [] where
  mirrors := mirrors_empty
  columns _ := rfl
  taken past _ _ hPrefix := by simp at hPrefix

theorem replay_concat_of_aloof
    (log : List Done)
    {done : Done}
    (hSet : done.operation.set? ≠ some handle)
    (hCreates : done.creates handle = false) :
    Columns.replay handle (log ++ [done]) =
      Columns.replay handle log := by
  rw [Columns.replay_concat, hCreates, if_neg Bool.false_ne_true,
    if_neg hSet]

/- The columns go along with one more operation. -/
theorem HasColumns.columns_of_carried
    (hColumns : s.HasColumns log)
    (hCarried : operation.Carried s answer s₁)
    (other : EventSet) :
    (s₁.sets.find? other).map SimulatedSet.columns =
      Columns.replay other (log ++ [⟨operation, answer⟩]) := by
  cases hCarried with
  | defined code name weight =>
      rw [replay_concat_of_aloof log (by simp [Operation.set?]) rfl]
      exact hColumns.columns other
  | created =>
      rw [find?_createEventSet, Columns.replay_concat]
      by_cases hNew : other = s.nextSet
      · simp [hNew, Done.creates, SimulatedSet.columns_empty]
      · simp [hNew, Ne.symm hNew, Done.creates, Operation.set?,
          hColumns.columns other]
  | @altered _ _ handle set altered hFind hAlters =>
      rw [putSet, OrderedMap.find?_insert]
      by_cases hOwn : other = handle
      · subst hOwn
        have hReplay := hColumns.columns other
        rw [hFind] at hReplay
        rw [if_pos rfl, Option.map_some, hAlters.columns_eq,
          hColumns.mirrors.weights, Columns.replay_concat,
          hAlters.creates_eq, if_neg Bool.false_ne_true,
          if_pos hAlters.set?_eq, ← hReplay]
        rfl
      · have hSet : operation.set? ≠ some other := by
          simpa [hAlters.set?_eq] using Ne.symm hOwn
        rw [if_neg hOwn,
          replay_concat_of_aloof log hSet
            (hAlters.creates_eq other)]
        exact hColumns.columns other

/- Values are taken from the columns that there are by then. -/
theorem HasColumns.counts_of_carried
    (hColumns : s.HasColumns log)
    {values : List Count}
    (hCarried : operation.Carried s (.counts values) s₁) :
    ∃ handle,
      operation.set? = some handle ∧
        (Columns.replay handle log).map Columns.counters =
          some values := by
  cases hCarried with
  | @altered _ _ handle set altered hFind hAlters =>
      refine ⟨handle, hAlters.set?_eq, ?_⟩
      rw [← hColumns.columns handle, hFind, hAlters.counts_eq]
      rfl

theorem HasColumns.of_carried
    (hColumns : s.HasColumns log)
    (hCarried : operation.Carried s answer s₁) :
    s₁.HasColumns (log ++ [⟨operation, answer⟩]) where
  mirrors := hColumns.mirrors.of_carried hCarried
  columns := hColumns.columns_of_carried hCarried
  taken past done values hPrefix := by
    rcases List.prefix_concat_iff.mp hPrefix with hLast | hEarlier
    · rcases List.append_inj' hLast rfl with ⟨rfl, hSame⟩
      cases hSame
      exact hColumns.counts_of_carried hCarried
    · exact hColumns.taken past done values hEarlier

/-
  A source with codes and counts in two lists goes through the
  same states as one with counters, and gives the same values,
  whatever it is asked to do.
-/
theorem columns_follow_log
    (operations : List Operation) :
    (run operations).1.HasColumns (run operations).2 :=
  kept_by_steps HasColumns.of_carried operations hasColumns_empty

end Simulated

end CoreTally
