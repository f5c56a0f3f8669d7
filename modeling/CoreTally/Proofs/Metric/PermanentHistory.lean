import CoreTally.Proofs.Metric.PendingReset
import CoreTally.Proofs.Metric.Register

/-
  Histories in which everything is kept for good. They are
  written down as they happen: every call leaves one entry, with
  the running total of its event, in the series of the unit that
  reports. Later calls change none of it. Sums that leave the
  range of counts are no exception.

  Key definitions include:
    * `Ledger.runningTotal`
    * `Ledger.written`
    * `EventSeries.stamped`
    * `EventSeries.Chronicle`

  Key theorems include:
    * `EventSeries.flatMap_eq_onUnit`
    * `EventSeries.Chronicle.credit_eq`
    * `EventSeries.Chronicle.change`
    * `Ledger.chronicle_replay`
    * `Ledger.permanent_history_is_log`
-/

namespace CoreTally

open EventSeries

------------------------------------------------------------
-- Running Totals
------------------------------------------------------------

/- The value of an event that is listed once. -/
def Batch.value
    (event : String)
    (batch : Batch) : Count :=
  (batch.valuesOf event).headD 0

/- A read sets the running total, an accumulate adds to it. -/
def Posting.Mode.running
    (value total : Count) : Posting.Mode → Count
| .read => value
| .accumulate => total.plus value

namespace Ledger

/- What an operation does to the running total of an event. -/
def Operation.running
    (event : String)
    (total : Count) : Operation → Count
| .store mode batch => mode.running (batch.value event) total
| .reset => total

/- The running total of an event, which starts from 0. -/
def runningTotal
    (event : String)
    (history : List Operation) : Count :=
  history.foldl (Operation.running event) 0

/-
  What is to be written down of an operation, when the running
  total has come to a value: the unit and its entry.
-/
def Operation.record
    (total : Count) : Operation → List (UnitId × Entry)
| .store _ batch => [(batch.unit, ⟨batch.instant, total, true⟩)]
| .reset => []

/-
  What is to be written down of a history, from a running total
  on.
-/
def written
    (event : String) :
    Count → List Operation → List (UnitId × Entry)
| _, [] => []
| total, operation :: rest =>
    let next := operation.running event total
    operation.record next ++ written event next rest

/- Everything that is stored is kept for good. -/
def Operation.Keeps : Operation → Prop
| .store _ batch => batch.permanent = true
| .reset => True

instance :
    (operation : Operation) → Decidable operation.Keeps
| .store _ batch =>
    inferInstanceAs (Decidable (batch.permanent = true))
| .reset => inferInstanceAs (Decidable True)

theorem written_append
    (event : String)
    (total : Count)
    (done rest : List Operation) :
    written event total (done ++ rest) =
      written event total done ++
        written event
          (done.foldl (Operation.running event) total) rest := by
  induction done generalizing total with
  | nil => rfl
  | cons operation done ih =>
      rw [List.cons_append, written, written, ih,
        List.append_assoc]
      rfl

theorem runningTotal_concat
    (event : String)
    (history : List Operation)
    (operation : Operation) :
    runningTotal event (history ++ [operation]) =
      operation.running event (runningTotal event history) :=
  List.foldl_concat _ _ _ _

/- The last operation is written down behind all others. -/
theorem written_concat
    (event : String)
    (history : List Operation)
    (operation : Operation) :
    written event 0 (history ++ [operation]) =
      written event 0 history ++
        operation.record
          (runningTotal event (history ++ [operation])) := by
  rw [written_append, written, written, List.append_nil,
    runningTotal_concat]
  rfl

end Ledger

------------------------------------------------------------
-- Series of One Unit among Others
------------------------------------------------------------

namespace Series

/- A permanent last entry is carried as long as it is live. -/
theorem carried_of_entries_permanent
    (previous : Instant)
    {series : Series}
    (hPermanent :
      ∀ entry ∈ series.entries, entry.permanent = true) :
    series.carried previous =
      ((series.liveAt? previous).map Entry.value).getD 0 := by
  cases series.ending with
  | empty unit => rfl
  | permanent unit init last h =>
      rw [carried, last?_concat, liveAt?_concat]
      by_cases hLive : last.instant = previous <;>
        simp [hLive, h]
  | temporary unit init last h =>
      rw [hPermanent last (by simp)] at h
      contradiction

/- The most recent entry of an instant is the last one of them. -/
theorem at?_eq_getLast?
    (series : Series)
    (instant : Instant) :
    series.at? instant =
      (series.entries.filter (·.instant == instant)).getLast? := by
  rw [at?, List.getLast?_filter]

end Series

namespace EventSeries

variable {α : Type}
variable {series : List Series}

/-
  What the series of an event yield together is what that of
  one unit yields, if the others yield nothing.
-/
theorem flatMap_eq_onUnit
    (hDistinct : Distinct series)
    (f : Series → List α)
    (unit : UnitId)
    (hEmpty : f ⟨unit, []⟩ = [])
    (hOthers : ∀ one ∈ series, one.unit ≠ unit → f one = []) :
    series.flatMap f = f (onUnit unit series) := by
  induction series with
  | nil => exact hEmpty.symm
  | cons head series ih =>
      rcases List.nodup_cons.mp hDistinct with ⟨hHead, hRest⟩
      rcases List.forall_mem_cons.mp hOthers with
        ⟨hFirst, hLater⟩
      rw [List.flatMap_cons, onUnit_cons, ih hRest hLater]
      by_cases hUnit : head.unit = unit
      · rw [if_pos hUnit, onUnit_of_notMem (hUnit ▸ hHead),
          hEmpty, List.append_nil]
      · rw [if_neg hUnit, hFirst hUnit, List.nil_append]

theorem filterMap_eq_onUnit
    (hDistinct : Distinct series)
    (f : Series → Option α)
    (unit : UnitId)
    (hEmpty : f ⟨unit, []⟩ = none)
    (hOthers : ∀ one ∈ series, one.unit ≠ unit → f one = none) :
    series.filterMap f = (f (onUnit unit series)).toList := by
  rw [List.filterMap_eq_flatMap_toList]
  apply flatMap_eq_onUnit hDistinct (fun one => (f one).toList)
  · rw [hEmpty]
    rfl
  · intro one hOne hUnit
    rw [hOthers one hOne hUnit]
    rfl

/- The entries stamped with an instant, with their units. -/
def stamped
    (instant : Instant)
    (series : List Series) : List (UnitId × Entry) :=
  series.flatMap fun one =>
    (one.entries.filter (·.instant == instant)).map (one.unit, ·)

------------------------------------------------------------
-- Chronicles
------------------------------------------------------------

/-
  The series of an event hold what has been written down, each
  unit its own part of it. Everything is kept for good, under
  instants that ascend up to the latest one, and the last entry
  has the running total.
-/
structure Chronicle
    (records : List (UnitId × Entry))
    (latest : Instant)
    (total : Count)
    (series : List Series) : Prop where
  distinct : Distinct series
  entries :
    ∀ unit,
      (onUnit unit series).entries =
        (records.filter (·.1 == unit)).map Prod.snd
  permanent : ∀ record ∈ records, record.2.permanent = true
  ascending :
    records.Pairwise fun earlier later =>
      earlier.2.instant < later.2.instant
  last :
    (records = [] ∧ total = 0) ∨
      ∃ front unit,
        records = front ++ [(unit, ⟨latest, total, true⟩)]

namespace Chronicle

variable {records : List (UnitId × Entry)}
variable {latest : Instant}
variable {total : Count}

theorem nil (latest : Instant) :
    Chronicle [] latest 0 [] :=
  ⟨List.nodup_nil, fun _ => rfl, by simp, .nil, .inl ⟨rfl, rfl⟩⟩

variable (hChronicle : Chronicle records latest total series)
include hChronicle

/- An entry of a unit has been written down for it. -/
theorem mem_records
    {unit : UnitId}
    {entry : Entry}
    (hEntry : entry ∈ (onUnit unit series).entries) :
    (unit, entry) ∈ records := by
  rw [hChronicle.entries] at hEntry
  rcases List.mem_map.mp hEntry with ⟨⟨holder, _⟩, hMem, rfl⟩
  rcases List.mem_filter.mp hMem with ⟨hRecord, hHolder⟩
  rwa [← beq_iff_eq.mp hHolder]

theorem permanent_onUnit
    (unit : UnitId) :
    ∀ entry ∈ (onUnit unit series).entries,
      entry.permanent = true := fun _ hEntry =>
  hChronicle.permanent _ (hChronicle.mem_records hEntry)

theorem settled :
    Settled series := by
  intro one hOne entry hEntry
  rw [← onUnit_of_mem hChronicle.distinct hOne] at hEntry
  exact hChronicle.permanent_onUnit one.unit entry hEntry

/- What is written down is not later than the latest instant. -/
theorem within
    {record : UnitId × Entry}
    (hRecord : record ∈ records) :
    record.2.instant ≤ latest := by
  rcases hChronicle.last with
    ⟨rfl, _⟩ | ⟨front, unit, rfl⟩
  · contradiction
  · rcases List.mem_append.mp hRecord with hFront | hLast
    · exact UInt64.le_of_lt
        ((List.pairwise_append.mp hChronicle.ascending).2.2
          record hFront _ List.mem_cons_self)
    · rw [List.mem_singleton.mp hLast]
      exact UInt64.le_refl _

/- Where nothing has been written down, nothing is live. -/
theorem liveAt?_of_nil
    (hNone : records = [])
    (unit : UnitId) :
    (onUnit unit series).liveAt? latest = none := by
  have hEntries := hChronicle.entries unit
  rw [hNone] at hEntries
  rw [Series.liveAt?, Series.last?, hEntries]
  rfl

/- The last entry is the only one of the latest instant. -/
theorem liveAt?_onUnit
    {front : List (UnitId × Entry)}
    {holder : UnitId}
    (hRecords :
      records = front ++ [(holder, ⟨latest, total, true⟩)])
    (unit : UnitId) :
    (onUnit unit series).liveAt? latest =
      if unit = holder then some ⟨latest, total, true⟩ else none := by
  have hEntries := hChronicle.entries unit
  rw [hRecords, List.filter_append, List.map_append] at hEntries
  rw [Series.liveAt?, Series.last?, hEntries]
  by_cases hHolder : unit = holder
  · simp [hHolder]
  · rw [if_neg hHolder, Option.filter_eq_none_iff]
    intro entry hLast
    have hMem := List.mem_of_getLast? hLast
    simp only [List.filter_cons, beq_iff_eq, Ne.symm hHolder,
      if_false, List.filter_nil, List.map_nil, List.append_nil,
      List.mem_map, List.mem_filter] at hMem
    rcases hMem with ⟨record, ⟨hFront, _⟩, rfl⟩
    have hAscending := hChronicle.ascending
    rw [hRecords] at hAscending
    have hEarlier :=
      (List.pairwise_append.mp hAscending).2.2
        record hFront _ List.mem_cons_self
    simpa using UInt64.ne_of_lt hEarlier

/- What a purge leaves is all of it. -/
theorem survivors :
    Chronicle records latest total (survivors series) where
  distinct := hChronicle.distinct.survivors
  entries := by
    intro unit
    rw [onUnit_survivors hChronicle.distinct,
      Series.purge_of_entries_permanent
        (hChronicle.permanent_onUnit unit),
      hChronicle.entries]
  permanent := hChronicle.permanent
  ascending := hChronicle.ascending
  last := hChronicle.last

end Chronicle

namespace Chronicle

variable {records : List (UnitId × Entry)}
variable {posting : Posting}
variable {total : Count}
variable
  (hChronicle : Chronicle records posting.previous total series)
include hChronicle

theorem heldValues_of_nil
    (hNone : records = []) :
    posting.heldValues true series = [] := by
  unfold Posting.heldValues
  rw [List.filterMap_eq_nil_iff]
  intro one hOne
  have hLive := hChronicle.liveAt?_of_nil hNone one.unit
  rw [onUnit_of_mem hChronicle.distinct hOne] at hLive
  rw [hLive]
  simp

/- The running total is held by one of the other units, if at all. -/
theorem heldValues_eq
    {front : List (UnitId × Entry)}
    {holder : UnitId}
    (hRecords :
      records =
        front ++ [(holder, ⟨posting.previous, total, true⟩)]) :
    posting.heldValues true series =
      if holder = posting.unit then [] else [total] := by
  have hLive := hChronicle.liveAt?_onUnit hRecords
  unfold Posting.heldValues
  rw [filterMap_eq_onUnit hChronicle.distinct _ holder,
    unit_onUnit, hLive, if_pos rfl]
  · by_cases hHolder : holder = posting.unit <;> simp [hHolder]
  · simp
  · intro one hOne hOther
    have hNone := hLive one.unit
    rw [onUnit_of_mem hChronicle.distinct hOne,
      if_neg hOther] at hNone
    rw [hNone]
    simp

/-
  The entry that the reporting unit gets has the new running
  total. An accumulate takes the old one from another unit or
  from its own last entry, whichever of them reported last.
-/
theorem credit_eq
    (mode : Posting.Mode)
    (value : Count) :
    posting.credit value series
        (onUnit posting.unit series) mode =
      mode.running value total := by
  cases mode with
  | read =>
      rw [Posting.credit, Posting.held_eq,
        hChronicle.settled.heldValues]
      exact Count.minus_zero value
  | accumulate =>
      have hCarried := Series.carried_of_entries_permanent
        posting.previous (hChronicle.permanent_onUnit posting.unit)
      rw [Posting.credit, Posting.held_eq, hCarried,
        Posting.Mode.running]
      rcases hChronicle.last with
        ⟨hNone, rfl⟩ | ⟨front, holder, hRecords⟩
      · rw [hChronicle.heldValues_of_nil hNone,
          hChronicle.liveAt?_of_nil hNone]
        simp [Count.total]
      · rw [hChronicle.heldValues_eq hRecords,
          hChronicle.liveAt?_onUnit hRecords]
        by_cases hHolder : holder = posting.unit
        · rw [if_pos hHolder, if_pos hHolder.symm]
          simp [Count.total, Count.plus_comm]
        · rw [if_neg hHolder, if_neg (Ne.symm hHolder)]
          simp [Count.total, Count.plus_comm]

/- A posting that is kept for good is written down. -/
theorem change
    (hLater : posting.previous < posting.instant)
    (hPermanent : posting.permanent = true)
    (mode : Posting.Mode)
    (value : Count) :
    let next := mode.running value total
    Chronicle
      (records ++ [(posting.unit, ⟨posting.instant, next, true⟩)])
      posting.instant next
      (posting.change mode value series) := by
  intro next
  constructor
  · rw [Posting.change_eq]
    exact Posting.distinct_place (Posting.unit_settle _ _ _ _)
      hChronicle.distinct
  · intro unit
    have hOwn := hChronicle.permanent_onUnit unit
    rw [Posting.change_eq,
      Posting.onUnit_place (Posting.unit_settle _ _ _ _),
      Posting.moved, unit_onUnit, List.filter_append,
      List.map_append, ← hChronicle.entries unit]
    by_cases hUnit : unit = posting.unit
    · subst hUnit
      rw [if_pos rfl, Posting.settle, hChronicle.credit_eq,
        Series.purge_of_entries_permanent hOwn]
      simp [Series.push, Posting.entry, hPermanent, next]
    · rw [if_neg hUnit, Series.carry_of_entries_permanent _ _ hOwn]
      simp [Ne.symm hUnit]
  · intro record hRecord
    rcases List.mem_append.mp hRecord with hOld | hNew
    · exact hChronicle.permanent record hOld
    · rw [List.mem_singleton.mp hNew]
  · apply List.pairwise_append.mpr
    refine ⟨hChronicle.ascending, List.pairwise_singleton _ _, ?_⟩
    intro record hRecord new hNew
    rw [List.mem_singleton.mp hNew]
    exact UInt64.lt_of_le_of_lt (hChronicle.within hRecord) hLater
  · exact .inr ⟨records, posting.unit, rfl⟩

end Chronicle

------------------------------------------------------------
-- Looking Things Up
------------------------------------------------------------

namespace Chronicle

variable {front back : List (UnitId × Entry)}
variable {holder : UnitId}
variable {entry : Entry}
variable {latest : Instant}
variable {total : Count}
variable
  (hChronicle :
    Chronicle (front ++ (holder, entry) :: back) latest total
      series)
include hChronicle

/- Only one unit has an entry of an instant, and only one. -/
theorem filter_onUnit
    (unit : UnitId) :
    (onUnit unit series).entries.filter
        (·.instant == entry.instant) =
      if unit = holder then [entry] else [] := by
  have hAscending :=
    List.pairwise_append.mp hChronicle.ascending
  have hFront :
      front.filter (·.2.instant == entry.instant) = [] := by
    rw [List.filter_eq_nil_iff]
    intro record hRecord
    have hEarlier := hAscending.2.2 record hRecord
      (holder, entry) List.mem_cons_self
    simpa using UInt64.ne_of_lt hEarlier
  have hBack :
      back.filter (·.2.instant == entry.instant) = [] := by
    rw [List.filter_eq_nil_iff]
    intro record hRecord
    have hLater :=
      (List.pairwise_cons.mp hAscending.2.1).1 record hRecord
    simpa using (UInt64.ne_of_lt hLater).symm
  have hInstant :
      (front ++ (holder, entry) :: back).filter
          (·.2.instant == entry.instant) =
        [(holder, entry)] := by
    rw [List.filter_append, hFront,
      List.filter_cons_of_pos (by simp), hBack]
    rfl
  have hComm := List.filter_comm (·.2.instant == entry.instant)
    (·.1 == unit) (front ++ (holder, entry) :: back)
  rw [hInstant] at hComm
  rw [hChronicle.entries, List.filter_map, Function.comp_def, hComm]
  by_cases hUnit : unit = holder
  · simp [hUnit]
  · simp [hUnit, Ne.symm hUnit]

/- What is written down is found again under its instant. -/
theorem stamped_eq :
    stamped entry.instant series = [(holder, entry)] := by
  unfold stamped
  rw [flatMap_eq_onUnit hChronicle.distinct _ holder,
    unit_onUnit, hChronicle.filter_onUnit, if_pos rfl]
  · rfl
  · rfl
  · intro one hOne hOther
    have hNone := hChronicle.filter_onUnit one.unit
    rw [onUnit_of_mem hChronicle.distinct hOne,
      if_neg hOther] at hNone
    rw [hNone]
    rfl

/- The total of an instant is what was written down under it. -/
theorem valuesAt_eq :
    valuesAt entry.instant series = [entry.value] := by
  unfold valuesAt
  rw [filterMap_eq_onUnit hChronicle.distinct _ holder,
    Series.at?_eq_getLast?, hChronicle.filter_onUnit, if_pos rfl]
  · rfl
  · rfl
  · intro one hOne hOther
    have hNone := hChronicle.filter_onUnit one.unit
    rw [onUnit_of_mem hChronicle.distinct hOne,
      if_neg hOther] at hNone
    rw [Series.at?_eq_getLast?, hNone]
    rfl

end Chronicle

end EventSeries

------------------------------------------------------------
-- Histories
------------------------------------------------------------

namespace Ledger

variable {event : String}
variable {history : List Operation}

/- A history of permanent values is written down as it happens. -/
theorem chronicle_replay
    (hAdvances : Along Advances empty history)
    (hFollows : Along (Follows event) empty history)
    (hKeeps : ∀ operation ∈ history, operation.Keeps) :
    Chronicle (written event 0 history)
      (empty.replay history).latest
      (runningTotal event history)
      ((empty.replay history).store.seriesOf event) := by
  induction history using List.reverseRecOn with
  | nil => exact .nil 0
  | append_singleton history operation ih =>
      rcases along_concat.mp hAdvances with ⟨hBefore, hAdvance⟩
      rcases along_concat.mp hFollows with ⟨hListed, hFollow⟩
      have hChronicle := ih hBefore hListed fun old hOld =>
        hKeeps old (List.mem_append_left _ hOld)
      have hKept : operation.Keeps := hKeeps operation (by simp)
      rw [written_concat, runningTotal_concat, replay_append]
      cases operation with
      | reset => simpa only [Operation.record, List.append_nil]
      | store mode batch =>
          rcases List.length_eq_one_iff.mp hFollow with
            ⟨value, hValue⟩
          have hOpened :
              Chronicle (written event 0 history)
                ((batch.posting (empty.replay history)).previous)
                (runningTotal event history)
                (((empty.replay history).opened
                  mode).store.seriesOf event) := by
            rw [seriesOf_opened]
            split
            · exact hChronicle.survivors
            · exact hChronicle
          have hChange := hOpened.change hAdvance hKept mode value
          rw [replay_cons, replay_nil, latest_apply_store,
            seriesOf_apply_once hValue, Operation.running,
            Batch.value, hValue]
          exact hChange

/-
  In a history that keeps everything for good, every call is
  found again when all is over, whatever has come in between.
  There is one entry under its instant, in the series of its
  unit, and the total of that instant is what the running total
  was: the value of a read, or the sum of an accumulate, which
  stays in the range of counts.
-/
theorem permanent_history_is_log
    {event : String}
    {history : List Operation}
    (hAdvances : Along Advances empty history)
    (hFollows : Along (Follows event) empty history)
    (hKeeps : ∀ operation ∈ history, operation.Keeps)
    {done rest : List Operation}
    {mode : Posting.Mode}
    {batch : Batch}
    (hHistory : history = done ++ .store mode batch :: rest) :
    let ledger := empty.replay history
    let total :=
      mode.running (batch.value event) (runningTotal event done)
    stamped batch.instant (ledger.store.seriesOf event) =
        [(batch.unit, ⟨batch.instant, total, true⟩)] ∧
      ledger.store.total event none batch.instant = total := by
  intro ledger total
  have hChronicle := chronicle_replay hAdvances hFollows hKeeps
  have hWritten :
      written event 0 history =
        written event 0 done ++
          (batch.unit, ⟨batch.instant, total, true⟩) ::
            written event total rest := by
    rw [hHistory, written_append, written]
    rfl
  rw [hWritten] at hChronicle
  have hValues := hChronicle.valuesAt_eq
  refine ⟨hChronicle.stamped_eq, ?_⟩
  rw [Store.total, sumFrom_none, hValues]
  exact Count.zero_plus total

/-
  Two units take turns. The second sum leaves the range and the
  third one comes back from its end; a reset and a read later,
  both are still found.
-/
theorem permanent_history_is_log_clipped :
    let done : List Operation :=
      [.store .accumulate
        ⟨0, 3, 1, [⟨"TOT_INS", 9223372036854775807⟩], true⟩]
    let rest : List Operation :=
      [.store .accumulate ⟨0, 3, 5, [⟨"TOT_INS", -7⟩], true⟩,
        .reset,
        .store .read
          ⟨1, 4, 6, [⟨"BR_MSP", 1⟩, ⟨"TOT_INS", 12⟩], true⟩,
        .store .accumulate ⟨0, 3, 9, [⟨"TOT_INS", 3⟩], true⟩]
    let batch : Batch := ⟨1, 4, 2, [⟨"TOT_INS", 5⟩], true⟩
    let history := done ++ .store .accumulate batch :: rest
    let ledger := empty.replay history
    Along Advances empty history ∧
      Along (Follows "TOT_INS") empty history ∧
      (∀ operation ∈ history, operation.Keeps) ∧
      ledger.store.seriesOf "TOT_INS" =
        [⟨0,
            [⟨1, 9223372036854775807, true⟩,
              ⟨5, 9223372036854775800, true⟩, ⟨9, 15, true⟩]⟩,
          ⟨1,
            [⟨2, 9223372036854775807, true⟩, ⟨6, 12, true⟩]⟩] ∧
      stamped 2 (ledger.store.seriesOf "TOT_INS") =
        [(1, ⟨2, 9223372036854775807, true⟩)] ∧
      ledger.store.total "TOT_INS" none 2 =
        9223372036854775807 := by
  intro done rest batch history ledger
  have hAdvances : Along Advances empty history := by decide
  have hFollows : Along (Follows "TOT_INS") empty history := by
    decide
  have hKeeps : ∀ operation ∈ history, operation.Keeps := by
    decide
  have hTotal :
      Posting.Mode.accumulate.running (batch.value "TOT_INS")
          (runningTotal "TOT_INS" done) =
        9223372036854775807 := by
    decide
  rcases permanent_history_is_log hAdvances hFollows hKeeps rfl
    with ⟨hStamped, hSum⟩
  rw [hTotal] at hStamped hSum
  exact ⟨hAdvances, hFollows, hKeeps, by decide, hStamped, hSum⟩

end Ledger

end CoreTally
