import CoreTally.Metric.Entry
import CoreTally.OrderedMap

/-
  This file defines the store of a measurement session. It maps
  event names to one series per unit, the units in the order in
  which they first had a reading for the event.

  Key definitions include:
    * `Store`
    * `Store.seriesOf`
    * `Store.unitSeries?`
    * `Store.total`
    * `Store.purge`
    * `Store.emptied`
-/

namespace CoreTally

/- Readings by event name. -/
structure Store where
  events : OrderedMap String (List Series)
deriving DecidableEq

namespace Store

/- The store without readings. -/
def empty : Store :=
  ⟨.empty⟩

/- The series of an event, if it has readings. -/
def series? (store : Store) (event : String) : Option (List Series) :=
  store.events.find? event

/- The series of an event, none where it has no readings. -/
def seriesOf (store : Store) (event : String) : List Series :=
  (store.series? event).getD []

/- The readings of an event on a unit. -/
def unitSeries?
    (store : Store)
    (event : String)
    (unit : UnitId) : Option Series :=
  (store.seriesOf event).find? fun series => series.unit == unit

/- Replace the series of an event. -/
def put
    (store : Store)
    (event : String)
    (series : List Series) : Store :=
  ⟨store.events.insert event series⟩

/- Names of the events with readings, ascending. -/
def names (store : Store) : List String :=
  store.events.keys

/- Number of events with readings. -/
def size (store : Store) : Nat :=
  store.events.size

------------------------------------------------------------
-- Totals
------------------------------------------------------------

/-
  Add up what the series hold for an instant, those of other
  units than `unit` left out. One unit has one series, so the
  search ends when it is found.
-/
def sumFrom
    (unit : Option UnitId)
    (instant : Instant) :
    Count → List Series → Count
| sum, [] => sum
| sum, series :: rest =>
    if unit.any (· != series.unit) then
      sumFrom unit instant sum rest
    else
      let sum :=
        match series.at? instant with
        | none => sum
        | some entry => sum.plus entry.value
      if unit = some series.unit then
        sum
      else
        sumFrom unit instant sum rest

/-
  The sum of the readings of an event for an instant, over all
  units or on one of them. A unit without a reading at that
  instant counts as zero.
-/
def total
    (store : Store)
    (event : String)
    (unit : Option UnitId)
    (instant : Instant) : Count :=
  sumFrom unit instant 0 (store.seriesOf event)

------------------------------------------------------------
-- Purging
------------------------------------------------------------

/- A series that a purge leaves without entries. -/
def isEmptied (series : Series) : Bool :=
  series.purge.entries.isEmpty

/- Purge the series of an event; nothing may be left. -/
def purgeSeries? (series : List Series) : Option (List Series) :=
  match (series.filter (!isEmptied ·)).map Series.purge with
  | [] => none
  | kept => some kept

/-
  Drop every temporary reading, and with them the series and
  events that are left without any.
-/
def purge (store : Store) : Store :=
  ⟨store.events.filterMap fun _ series => purgeSeries? series⟩

/- The units of the series that a purge empties, one for each. -/
def emptied (store : Store) : List UnitId :=
  store.events.toList.flatMap fun (_, series) =>
    (series.filter isEmptied).map Series.unit

end Store

end CoreTally
