import CoreTally.Metric.Store

/-
  This file attributes raw counter values to execution units.

  One event set can report from different units over its
  lifetime. Every call hands the ledger a set of raw values and
  the unit that reports now, and the ledger decides how much of
  each value belongs to that unit.

  A read brings cumulative values. Temporary readings that
  other units hold at the previous instant are part of such a
  value, so they are subtracted from it and carried forward.

  An accumulate brings deltas. Permanent readings that other
  units hold at the previous instant are added to them, while
  temporary ones are only carried forward.

  Key definitions include:
    * `Reading`
    * `Participant`
    * `Posting`
    * `Posting.read`
    * `Posting.accumulate`
    * `Ledger`
    * `Ledger.storeRead`
    * `Ledger.storeAccumulate`
    * `Ledger.requestReset`
-/

namespace CoreTally

/- One raw counter value with the name of its event. -/
structure Reading where
  event : String
  value : Count
deriving DecidableEq, Repr

/-
  A unit with readings: its topology component and the number
  of series stored for it.
-/
structure Participant where
  node : Nat
  refs : UInt32
deriving DecidableEq, Repr

------------------------------------------------------------
-- Postings
------------------------------------------------------------

/-
  How the values of one call are stored: for which unit, under
  which instant and whether for good, after the instant
  `previous` of the call before.
-/
structure Posting where
  unit : UnitId
  previous : Instant
  instant : Instant
  permanent : Bool
deriving DecidableEq, Repr

namespace Posting

/-
  What other units hold at the previous instant, in permanent
  or in temporary readings.
-/
def held
    (posting : Posting)
    (permanent : Bool)
    (series : List Series) : Count :=
  Count.total
    (series.filterMap fun s =>
      if s.unit = posting.unit then
        none
      else
        match s.liveAt? posting.previous with
        | none => none
        | some last =>
            if last.permanent = permanent then some last.value else none)

/- An entry of this posting. -/
def entry (posting : Posting) (value : Count) : Entry :=
  ⟨posting.instant, value, posting.permanent⟩

/-
  Change the series of the posting's unit, which is new when
  there is none yet, and carry the other ones forward.
-/
def place
    (posting : Posting)
    (own : Series → Series)
    (series : List Series) : List Series :=
  let moved := series.map fun s =>
    if s.unit = posting.unit then
      own s
    else
      s.carry posting.previous posting.instant
  if series.any (·.unit == posting.unit) then
    moved
  else
    moved ++ [own ⟨posting.unit, []⟩]

/- Store a cumulative value among the series of its event. -/
def read
    (posting : Posting)
    (value : Count)
    (series : List Series) : List Series :=
  let rest := value.minus (posting.held false series)
  posting.place (Series.overwrite (posting.entry rest)) series

/- Store a delta among the series of its event. -/
def accumulate
    (posting : Posting)
    (value : Count)
    (series : List Series) : List Series :=
  let sum := value.plus (posting.held true series)
  posting.place
    (Series.accumulate posting.previous (posting.entry sum)) series

end Posting

------------------------------------------------------------
-- Ledgers
------------------------------------------------------------

/-
  The accounting state of a measurement session. A pending
  reset makes the next read purge all temporary readings.
-/
structure Ledger where
  store : Store
  participants : OrderedMap UnitId Participant
  latest : Instant
  pendingReset : Bool
deriving DecidableEq

namespace Ledger

/- The ledger without readings. -/
def empty : Ledger where
  store := .empty
  participants := .empty
  latest := 0
  pendingReset := false

instance : Inhabited Ledger :=
  ⟨empty⟩

/- Mark the temporary readings as stale. -/
def requestReset (ledger : Ledger) : Ledger :=
  { ledger with pendingReset := true }

/- Let a unit take part. -/
def enlist
    (ledger : Ledger)
    (unit : UnitId)
    (node : Nat) : Ledger :=
  if ledger.participants.contains unit then
    ledger
  else
    { ledger with
      participants := ledger.participants.insert unit ⟨node, 0⟩ }

/- One more series is stored for a unit. -/
def retain
    (participants : OrderedMap UnitId Participant)
    (unit : UnitId) : OrderedMap UnitId Participant :=
  match participants.find? unit with
  | none => participants
  | some p => participants.insert unit { p with refs := p.refs + 1 }

/- One series less is stored for a unit; the last one evicts it. -/
def release
    (participants : OrderedMap UnitId Participant)
    (unit : UnitId) : OrderedMap UnitId Participant :=
  match participants.find? unit with
  | none => participants
  | some p =>
      if p.refs ≤ 1 then
        participants.erase unit
      else
        participants.insert unit { p with refs := p.refs - 1 }

/- Drop all temporary readings. -/
def purge (ledger : Ledger) : Ledger :=
  { ledger with
    store := ledger.store.purge
    participants :=
      ledger.store.emptied.foldl release ledger.participants }

/- Change the series of one event on behalf of a unit. -/
def post
    (unit : UnitId)
    (change : Count → List Series → List Series)
    (ledger : Ledger)
    (reading : Reading) : Ledger :=
  let series := ledger.store.seriesOf reading.event
  { ledger with
    store := ledger.store.put reading.event (change reading.value series)
    participants :=
      if series.any (·.unit == unit) then
        ledger.participants
      else
        retain ledger.participants unit }

/-
  Store cumulative values, as a read or a stop returns them. A
  pending reset is carried out first.
-/
def storeRead
    (ledger : Ledger)
    (unit : UnitId)
    (node : Nat)
    (instant : Instant)
    (readings : List Reading)
    (permanent : Bool) : Ledger :=
  let fresh :=
    if ledger.pendingReset then
      { ledger.purge with pendingReset := false }
    else
      ledger
  let posting : Posting := ⟨unit, ledger.latest, instant, permanent⟩
  let posted :=
    readings.foldl (post unit posting.read) (fresh.enlist unit node)
  { posted with latest := instant }

/-
  Store deltas, as an accumulate returns them. The next read
  purges temporary readings afterwards.
-/
def storeAccumulate
    (ledger : Ledger)
    (unit : UnitId)
    (node : Nat)
    (instant : Instant)
    (readings : List Reading)
    (permanent : Bool) : Ledger :=
  let posting : Posting := ⟨unit, ledger.latest, instant, permanent⟩
  let posted :=
    readings.foldl (post unit posting.accumulate)
      (ledger.requestReset.enlist unit node)
  { posted with latest := instant }

end Ledger

end CoreTally
