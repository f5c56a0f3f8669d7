import CoreTally.Proofs.Metric.PostingForm

/-
  Histories of a ledger: the operations that change it, one
  after another, and what they do to the series of one event.
  Events do not interfere, so that the series of an event can
  be followed through a history alone.

  Key definitions include:
    * `Batch`
    * `Batch.valuesOf`
    * `Batch.raw`
    * `Batch.ListsOnce`
    * `Ledger.Operation`
    * `Ledger.apply`
    * `Ledger.replay`
    * `Ledger.Along`
    * `Ledger.opened`

  Key theorems include:
    * `Ledger.Along.invariant`
    * `Ledger.apply_store`
    * `Ledger.seriesOf_apply`
-/

namespace CoreTally

open EventSeries

------------------------------------------------------------
-- Readings
------------------------------------------------------------

/- The readings of an event set, one for each of its events. -/
def readingsOf
    {ι : Type}
    (event : ι → String)
    (value : ι → Count)
    (items : List ι) : List Reading :=
  items.map fun item => ⟨event item, value item⟩

/- Events with distinct names have one value each. -/
theorem filter_readingsOf
    {ι : Type}
    {event : ι → String}
    {items : List ι}
    (hDistinct : (items.map event).Nodup)
    (value : ι → Count)
    {item : ι}
    (hItem : item ∈ items) :
    ((readingsOf event value items).filter
        (·.event == event item)).map Reading.value =
      [value item] := by
  induction items with
  | nil => simp at hItem
  | cons head rest ih =>
      rcases List.nodup_cons.mp hDistinct with ⟨hHead, hRest⟩
      rcases List.mem_cons.mp hItem with rfl | hItem
      · have hNone :
            (readingsOf event value rest).filter
                (·.event == event item) = [] := by
          rw [List.filter_eq_nil_iff]
          intro reading hReading
          rcases List.mem_map.mp hReading with
            ⟨other, hOther, rfl⟩
          have hEvent : event other ≠ event item :=
            ne_of_mem_of_not_mem (List.mem_map_of_mem hOther) hHead
          simpa using hEvent
        rw [readingsOf, List.map_cons, ← readingsOf,
          List.filter_cons_of_pos (by simp), hNone]
        rfl
      · have hEvent : event head ≠ event item :=
          (ne_of_mem_of_not_mem
            (List.mem_map_of_mem hItem) hHead).symm
        rw [readingsOf, List.map_cons, ← readingsOf,
          List.filter_cons_of_neg (by simpa using hEvent)]
        exact ih hRest hItem

------------------------------------------------------------
-- Batches
------------------------------------------------------------

/-
  What one call hands to a ledger: the unit that reports with
  its component, the instant, the raw values, and whether the
  readings are kept for good.
-/
structure Batch where
  unit : UnitId
  node : Nat
  instant : Instant
  readings : List Reading
  permanent : Bool
deriving DecidableEq, Repr

namespace Batch

/- The raw values of an event, in the order of the readings. -/
def valuesOf
    (event : String)
    (batch : Batch) : List Count :=
  (batch.readings.filter (·.event == event)).map Reading.value

/- An event is listed exactly once. -/
def ListsOnce
    (event : String)
    (batch : Batch) : Prop :=
  (batch.valuesOf event).length = 1

/- The raw value of an event that is listed once. -/
def raw
    (event : String)
    (batch : Batch) : Int :=
  Count.exactTotal (batch.valuesOf event)

/- Names of the listed events. -/
def events (batch : Batch) : List String :=
  batch.readings.map Reading.event

/- The posting of a batch to a ledger. -/
def posting
    (batch : Batch)
    (ledger : Ledger) : Posting :=
  ⟨batch.unit, ledger.latest, batch.instant, batch.permanent⟩

@[simp] theorem unit_posting
    (batch : Batch)
    (ledger : Ledger) :
    (batch.posting ledger).unit = batch.unit := rfl

@[simp] theorem entry_posting
    (batch : Batch)
    (ledger : Ledger)
    (value : Count) :
    (batch.posting ledger).entry value =
      ⟨batch.instant, value, batch.permanent⟩ := rfl

/- An event that is listed once has its raw value only. -/
theorem exists_valuesOf_eq
    {event : String}
    {batch : Batch}
    (hOnce : batch.ListsOnce event) :
    ∃ value, batch.valuesOf event = [value] ∧
      value.toInt = batch.raw event := by
  rcases List.length_eq_one_iff.mp hOnce with ⟨value, hValue⟩
  refine ⟨value, hValue, ?_⟩
  rw [raw, hValue]
  simp

end Batch

------------------------------------------------------------
-- Operations
------------------------------------------------------------

namespace Ledger

/- What changes a ledger. -/
inductive Operation where
| store (mode : Posting.Mode) (batch : Batch)
| reset
deriving DecidableEq, Repr

/- Carry out an operation. -/
def apply (ledger : Ledger) : Operation → Ledger
| .store .read batch =>
    ledger.storeRead batch.unit batch.node batch.instant
      batch.readings batch.permanent
| .store .accumulate batch =>
    ledger.storeAccumulate batch.unit batch.node batch.instant
      batch.readings batch.permanent
| .reset => ledger.requestReset

/- Carry out operations one after another. -/
def replay
    (ledger : Ledger)
    (history : List Operation) : Ledger :=
  history.foldl apply ledger

/- Every operation meets a condition where it is carried out. -/
def Along
    (condition : Ledger → Operation → Prop) :
    Ledger → List Operation → Prop
| _, [] => True
| ledger, operation :: rest =>
    condition ledger operation ∧
      Along condition (ledger.apply operation) rest

@[simp] theorem replay_nil
    (ledger : Ledger) :
    ledger.replay [] = ledger := rfl

@[simp] theorem replay_cons
    (ledger : Ledger)
    (operation : Operation)
    (rest : List Operation) :
    ledger.replay (operation :: rest) =
      (ledger.apply operation).replay rest := rfl

theorem replay_append
    (ledger : Ledger)
    (first second : List Operation) :
    ledger.replay (first ++ second) =
      (ledger.replay first).replay second :=
  List.foldl_append

/-
  What every operation keeps under a condition holds after a
  history along which the condition is met.
-/
theorem Along.invariant
    {condition : Ledger → Operation → Prop}
    (invariant : Ledger → Prop)
    (hStep :
      ∀ ledger operation,
        invariant ledger →
        condition ledger operation →
        invariant (ledger.apply operation))
    {ledger : Ledger}
    {history : List Operation}
    (hAlong : Along condition ledger history)
    (hStart : invariant ledger) :
    invariant (ledger.replay history) := by
  induction history generalizing ledger with
  | nil => exact hStart
  | cons operation rest ih =>
      exact ih hAlong.2 (hStep ledger operation hStart hAlong.1)

/- The last operation is carried out after all others. -/
theorem along_concat
    {condition : Ledger → Operation → Prop}
    {ledger : Ledger}
    {history : List Operation}
    {operation : Operation} :
    Along condition ledger (history ++ [operation]) ↔
      Along condition ledger history ∧
        condition (ledger.replay history) operation := by
  induction history generalizing ledger with
  | nil => exact and_comm
  | cons first rest ih =>
      rw [List.cons_append, Along, Along, ih, and_assoc]
      rfl

/- Two conditions that are met along a history are met together. -/
theorem Along.and
    {one other : Ledger → Operation → Prop}
    {ledger : Ledger}
    {history : List Operation}
    (hOne : Along one ledger history)
    (hOther : Along other ledger history) :
    Along
      (fun ledger operation =>
        one ledger operation ∧ other ledger operation)
      ledger history := by
  induction history generalizing ledger with
  | nil => trivial
  | cons operation rest ih =>
      exact ⟨⟨hOne.1, hOther.1⟩, ih hOne.2 hOther.2⟩

instance decidableAlong
    (condition : Ledger → Operation → Prop)
    [∀ ledger operation, Decidable (condition ledger operation)] :
    (ledger : Ledger) →
      (history : List Operation) →
      Decidable (Along condition ledger history)
| _, [] => inferInstanceAs (Decidable True)
| ledger, operation :: rest =>
    have := decidableAlong condition (ledger.apply operation) rest
    inferInstanceAs (Decidable (_ ∧ _))

/- Values are stored under later and later instants. -/
def Advances (ledger : Ledger) : Operation → Prop
| .store _ batch => ledger.latest < batch.instant
| .reset => True

instance
    (ledger : Ledger) :
    (operation : Operation) →
      Decidable (ledger.Advances operation)
| .store _ batch =>
    inferInstanceAs (Decidable (ledger.latest < batch.instant))
| .reset => inferInstanceAs (Decidable True)

/- An event is listed once by everything that is stored. -/
def Follows
    (event : String)
    (_ : Ledger) : Operation → Prop
| .store _ batch => batch.ListsOnce event
| .reset => True

instance
    (event : String)
    (ledger : Ledger) :
    (operation : Operation) →
      Decidable (ledger.Follows event operation)
| .store _ batch =>
    inferInstanceAs (Decidable ((batch.valuesOf event).length = 1))
| .reset => inferInstanceAs (Decidable True)

------------------------------------------------------------
-- Storing
------------------------------------------------------------

/-
  The ledger that values are stored into: a read carries out a
  pending reset, and an accumulate asks for one.
-/
def opened (ledger : Ledger) : Posting.Mode → Ledger
| .read =>
    if ledger.pendingReset then
      { ledger.purge with pendingReset := false }
    else
      ledger
| .accumulate => ledger.requestReset

/- Without a pending reset a read finds the ledger as it is. -/
theorem opened_of_notPending
    {ledger : Ledger}
    (hPending : ledger.pendingReset = false) :
    ledger.opened .read = ledger := by
  simp [opened, hPending]

@[simp] theorem latest_opened
    (ledger : Ledger)
    (mode : Posting.Mode) :
    (ledger.opened mode).latest = ledger.latest := by
  cases mode with
  | read =>
      by_cases hPending : ledger.pendingReset = true <;>
        simp [opened, purge, hPending]
  | accumulate => rfl

/- Both modes post every reading to the opened ledger. -/
theorem apply_store
    (ledger : Ledger)
    (mode : Posting.Mode)
    (batch : Batch) :
    ledger.apply (.store mode batch) =
      { batch.readings.foldl
          (post batch.unit ((batch.posting ledger).change mode))
          ((ledger.opened mode).enlist batch.unit batch.node) with
        latest := batch.instant } := by
  cases mode <;> rfl

@[simp] theorem latest_apply_store
    (ledger : Ledger)
    (mode : Posting.Mode)
    (batch : Batch) :
    (ledger.apply (.store mode batch)).latest = batch.instant := by
  rw [apply_store]

@[simp] theorem store_enlist
    (ledger : Ledger)
    (unit : UnitId)
    (node : Nat) :
    (ledger.enlist unit node).store = ledger.store := by
  unfold enlist
  split <;> rfl

@[simp] theorem pendingReset_enlist
    (ledger : Ledger)
    (unit : UnitId)
    (node : Nat) :
    (ledger.enlist unit node).pendingReset =
      ledger.pendingReset := by
  unfold enlist
  split <;> rfl

@[simp] theorem pendingReset_foldl_post
    (unit : UnitId)
    (change : Count → List Series → List Series)
    (readings : List Reading)
    (ledger : Ledger) :
    (readings.foldl (post unit change) ledger).pendingReset =
      ledger.pendingReset := by
  induction readings generalizing ledger with
  | nil => rfl
  | cons reading readings ih => exact ih _

/- A read leaves no reset pending. -/
@[simp] theorem pendingReset_apply_read
    (ledger : Ledger)
    (batch : Batch) :
    (ledger.apply (.store .read batch)).pendingReset = false := by
  rw [apply_store]
  simp only [pendingReset_foldl_post, pendingReset_enlist, opened]
  split
  · rfl
  · rename_i hPending
    simpa using hPending

/- An accumulate always does. -/
@[simp] theorem pendingReset_apply_accumulate
    (ledger : Ledger)
    (batch : Batch) :
    (ledger.apply (.store .accumulate batch)).pendingReset =
      true := by
  rw [apply_store]
  simp only [pendingReset_foldl_post, pendingReset_enlist, opened,
    requestReset]

end Ledger

------------------------------------------------------------
-- The Series of an Event
------------------------------------------------------------

namespace Store

/- Replacing the series of an event leaves all others alone. -/
theorem seriesOf_put
    (store : Store)
    (event other : String)
    (series : List Series) :
    (store.put event series).seriesOf other =
      if other = event then series else store.seriesOf other := by
  unfold seriesOf series? put
  rw [OrderedMap.find?_insert]
  split <;> rfl

/- A purge leaves the surviving series of every event. -/
theorem seriesOf_purge
    (store : Store)
    (event : String) :
    store.purge.seriesOf event =
      survivors (store.seriesOf event) := by
  unfold seriesOf series? purge
  rw [OrderedMap.find?_filterMap]
  cases store.events.find? event with
  | none => rfl
  | some series =>
      rw [Option.bind_some, Option.getD_some, purgeSeries?_eq]
      split
      · rename_i hNone
        rw [hNone]
        rfl
      · rfl

variable {store : Store}
variable {event : String}

/- A unit whose series has entries is found with them. -/
theorem unitSeries?_of_entries
    {unit : UnitId}
    {entries : List Entry}
    (hEntries :
      (onUnit unit (store.seriesOf event)).entries = entries)
    (hSome : entries ≠ []) :
    store.unitSeries? event unit = some ⟨unit, entries⟩ := by
  have hUnit := unit_onUnit unit (store.seriesOf event)
  subst hEntries
  unfold onUnit at hSome hUnit ⊢
  unfold unitSeries?
  cases hFind :
      (store.seriesOf event).find? (·.unit == unit) with
  | none =>
      rw [hFind] at hSome
      contradiction
  | some series =>
      rw [hFind, Option.getD_some] at hUnit
      rw [Option.getD_some, ← hUnit]

/- Every listed series is the one that is found for its unit. -/
theorem unitSeries?_of_mem
    (hDistinct : Distinct (store.seriesOf event))
    {one : Series}
    (hMem : one ∈ store.seriesOf event) :
    store.unitSeries? event one.unit = some one := by
  have hOwn := onUnit_of_mem hDistinct hMem
  unfold onUnit at hOwn
  unfold unitSeries?
  cases hFind :
      (store.seriesOf event).find? (·.unit == one.unit) with
  | none =>
      have hNone := List.find?_eq_none.mp hFind one hMem
      simp at hNone
  | some series =>
      rw [hFind, Option.getD_some] at hOwn
      rw [hOwn]

end Store

namespace Ledger

/- The series of an event after its values have been posted. -/
theorem seriesOf_foldl_post
    (unit : UnitId)
    (change : Count → List Series → List Series)
    (event : String)
    (readings : List Reading)
    (ledger : Ledger) :
    (readings.foldl (post unit change) ledger).store.seriesOf
        event =
      ((readings.filter (·.event == event)).map
        Reading.value).foldl (fun series value => change value series)
          (ledger.store.seriesOf event) := by
  induction readings generalizing ledger with
  | nil => rfl
  | cons reading readings ih =>
      rw [List.foldl_cons, ih, post, Store.seriesOf_put]
      by_cases hEvent : reading.event = event
      · rw [if_pos hEvent.symm,
          List.filter_cons_of_pos (by simpa using hEvent),
          List.map_cons, List.foldl_cons, hEvent]
      · rw [if_neg (Ne.symm hEvent),
          List.filter_cons_of_neg (by simpa using hEvent)]

/-
  What values that are stored do to the series of an event: its
  own values are posted to the series of the opened ledger.
-/
theorem seriesOf_apply
    (ledger : Ledger)
    (mode : Posting.Mode)
    (batch : Batch)
    (event : String) :
    (ledger.apply (.store mode batch)).store.seriesOf event =
      (batch.valuesOf event).foldl
        (fun series value =>
          (batch.posting ledger).change mode value series)
        ((ledger.opened mode).store.seriesOf event) := by
  rw [apply_store]
  exact (seriesOf_foldl_post _ _ _ _ _).trans (by simp [Batch.valuesOf])

/- An event that is listed once has its raw value posted. -/
theorem seriesOf_apply_once
    {event : String}
    {batch : Batch}
    {value : Count}
    (hValue : batch.valuesOf event = [value])
    (ledger : Ledger)
    (mode : Posting.Mode) :
    (ledger.apply (.store mode batch)).store.seriesOf event =
      (batch.posting ledger).change mode value
        ((ledger.opened mode).store.seriesOf event) := by
  rw [seriesOf_apply, hValue]
  rfl

/- The series of an event when values are to be stored. -/
theorem seriesOf_opened
    (ledger : Ledger)
    (mode : Posting.Mode)
    (event : String) :
    (ledger.opened mode).store.seriesOf event =
      if mode = .read ∧ ledger.pendingReset = true then
        survivors (ledger.store.seriesOf event)
      else
        ledger.store.seriesOf event := by
  cases mode with
  | read =>
      unfold opened
      by_cases hPending : ledger.pendingReset = true
      · simp [hPending, purge, Store.seriesOf_purge]
      · simp [hPending]
  | accumulate => simp [opened, requestReset]

end Ledger

end CoreTally
