import CoreTally.Basic
import CoreTally.Count
import CoreTally.Instant

/-
  This file defines stored readings of one event on one unit.
  Only the last entry of a series may be temporary, and only
  the last entry is ever changed in place.

  Key definitions include:
    * `Entry`
    * `Entry.text`
    * `Series`
    * `Series.at?`
    * `Series.overwrite`
    * `Series.accumulate`
    * `Series.carry`
    * `Series.purge`
-/

namespace CoreTally

------------------------------------------------------------
-- Entries
------------------------------------------------------------

/-
  One stored reading: the instant it belongs to, the counts
  attributed to the unit, and whether it is kept for good.
-/
structure Entry where
  instant : Instant
  value : Count
  permanent : Bool
deriving DecidableEq, Repr

/- An entry as it is printed. -/
def Entry.text (entry : Entry) : String :=
  let permanence := if entry.permanent then ", permanent" else ""
  "\x7b timestamp: " ++ toString entry.instant ++ ", value: " ++
    toString entry.value ++ permanence ++ " \x7d"

------------------------------------------------------------
-- Series
------------------------------------------------------------

/- The entries of one event on one unit, in insertion order. -/
structure Series where
  unit : UnitId
  entries : List Entry
deriving DecidableEq, Repr

namespace Series

/- The most recent entry. -/
def last? (series : Series) : Option Entry :=
  series.entries.getLast?

/- The most recent entry stored for an instant. -/
def at? (series : Series) (instant : Instant) : Option Entry :=
  series.entries.reverse.find? fun entry => entry.instant == instant

/- Add an entry at the end. -/
def push (series : Series) (entry : Entry) : Series :=
  { series with entries := series.entries ++ [entry] }

/- Put an entry in the place of the last one. -/
def replaceLast (series : Series) (entry : Entry) : Series :=
  { series with entries := series.entries.dropLast ++ [entry] }

/-
  Store a plain reading: it replaces a temporary last entry and
  follows a permanent one.
-/
def overwrite (entry : Entry) (series : Series) : Series :=
  match series.last? with
  | none => series.push entry
  | some last =>
      if last.permanent then
        series.push entry
      else
        series.replaceLast entry

/-
  Store a reading that counts on from the last entry. A
  temporary last entry takes it in. A permanent one of the
  instant `previous` is followed by the running total, and any
  other one by the reading alone.
-/
def accumulate
    (previous : Instant)
    (entry : Entry)
    (series : Series) : Series :=
  match series.last? with
  | none => series.push entry
  | some last =>
      let total := { entry with value := entry.value.plus last.value }
      if !last.permanent then
        series.replaceLast
          { entry with value := last.value.plus entry.value }
      else if last.instant = previous then
        series.push total
      else
        series.push entry

/- The last entry, if it is live at an instant. -/
def liveAt? (series : Series) (instant : Instant) : Option Entry :=
  series.last?.filter fun last => last.instant == instant

/-
  Move a temporary last entry from the instant `previous` on to
  the instant `next`.
-/
def carry (previous next : Instant) (series : Series) : Series :=
  match series.liveAt? previous with
  | none => series
  | some last =>
      if last.permanent then
        series
      else
        series.replaceLast { last with instant := next }

/- Drop the last entry if it is temporary. -/
def purge (series : Series) : Series :=
  match series.last? with
  | none => series
  | some last =>
      if last.permanent then
        series
      else
        { series with entries := series.entries.dropLast }

end Series

end CoreTally
