import CoreTally.Json.Printer
import CoreTally.Json.Reader
import CoreTally.Json.Record
import CoreTally.Metric.Session

/-
  This file defines reports, which hold everything a session
  recorded, and their JSON form.

  Key definitions include:
    * `EventReport`
    * `UnitReport`
    * `SessionReport`
    * `SessionReport.capture`
    * `SessionReport.toJson`
    * `SessionReport.ofJson?`
    * `SessionReport.write`
    * `SessionReport.read?`
-/

namespace CoreTally

/- The readings of one event on one unit. -/
structure EventReport where
  event : String
  entries : List Entry
  latest : Count
deriving DecidableEq, Repr

/- The readings of one unit. -/
structure UnitReport where
  unit : UnitId
  component : String
  refs : UInt32
  events : List EventReport
deriving DecidableEq, Repr

/-
  Everything a session recorded. The totals are sums over all
  units at the latest instant.
-/
structure SessionReport where
  handle : EventSet
  running : Bool
  latest : Instant
  pendingReset : Bool
  totals : List (String × Count)
  units : List UnitReport
deriving DecidableEq, Repr

------------------------------------------------------------
-- Capturing
------------------------------------------------------------

/- The report on one event of one unit, if it has readings there. -/
def EventReport.of?
    (session : Session)
    (unit : UnitId)
    (event : String) : Option EventReport :=
  (session.series? event unit).map fun series =>
    { event
      entries := series.entries
      latest := session.metric event (some unit) none }

/- The report on one unit. -/
def UnitReport.of
    (session : Session)
    (topology : Topology)
    (unit : UnitId)
    (p : Participant) : UnitReport where
  unit := unit
  component := ((topology.get? p.node).map Component.name).getD ""
  refs := p.refs
  events := session.names.filterMap (EventReport.of? session unit)

/- The report on a session. -/
def SessionReport.capture
    (session : Session)
    (topology : Topology) : SessionReport where
  handle := session.handle
  running := session.running
  latest := session.latest
  pendingReset := session.ledger.pendingReset
  totals :=
    session.names.map fun event => (event, session.metric event none none)
  units :=
    session.ledger.participants.toList.map fun (unit, p) =>
      UnitReport.of session topology unit p

------------------------------------------------------------
-- Entries and Series in JSON
------------------------------------------------------------

/- An entry in JSON. -/
def Entry.toJson (entry : Entry) : Json :=
  .record
    [("timestamp", .nat entry.instant.toNat),
      ("value", .int entry.value.toInt),
      ("permanent", .bool entry.permanent)]

/- The entry of a JSON value. -/
def Entry.ofJson? (value : Json) : Option Entry :=
  match value.allFields? ["timestamp", "value", "permanent"] with
  | some [instant, count, permanent] => do
      return ⟨← instant.uint64?, ← count.int64?, ← permanent.bool?⟩
  | _ => none

/- The series of a JSON value. -/
def Series.ofJson? (value : Json) : Option Series :=
  match value.allFields? ["unit", "entries"] with
  | some [unit, entries] => do
      return ⟨← unit.uint32?, ← entries.list? Entry.ofJson?⟩
  | _ => none

------------------------------------------------------------
-- Reports in JSON
------------------------------------------------------------

/- A report on one event in JSON. -/
def EventReport.toJson (report : EventReport) : Json :=
  .record
    [("event", .str report.event),
      ("entries", .array (report.entries.map Entry.toJson)),
      ("latest", .int report.latest.toInt)]

/- The report on one event of a JSON value. -/
def EventReport.ofJson? (value : Json) : Option EventReport :=
  match value.allFields? ["event", "entries", "latest"] with
  | some [event, entries, latest] => do
      return ⟨← event.text?, ← entries.list? Entry.ofJson?,
        ← latest.int64?⟩
  | _ => none

/- A report on one unit in JSON. -/
def UnitReport.toJson (report : UnitReport) : Json :=
  .record
    [("unit", .nat report.unit.toNat),
      ("component", .str report.component),
      ("refs", .nat report.refs.toNat),
      ("events", .array (report.events.map EventReport.toJson))]

/- The report on one unit of a JSON value. -/
def UnitReport.ofJson? (value : Json) : Option UnitReport :=
  match value.allFields? ["unit", "component", "refs", "events"] with
  | some [unit, component, refs, events] => do
      return ⟨← unit.uint32?, ← component.text?, ← refs.uint32?,
        ← events.list? EventReport.ofJson?⟩
  | _ => none

namespace SessionReport

/- A total in JSON: the name of the event and the sum. -/
def totalJson (total : String × Count) : Json :=
  .array [.str total.1, .int total.2.toInt]

/- The total of a JSON value. -/
def totalOfJson? : Json → Option (String × Count)
| .array [event, sum] => do
    return (← event.text?, ← sum.int64?)
| _ => none

/- A report in JSON. -/
def toJson (report : SessionReport) : Json :=
  .record
    [("handle", .int report.handle.toInt),
      ("running", .bool report.running),
      ("latest_timestamp", .nat report.latest.toNat),
      ("pending_reset", .bool report.pendingReset),
      ("totals", .array (report.totals.map totalJson)),
      ("units", .array (report.units.map UnitReport.toJson))]

/- The names of the fields of a report. -/
def fieldNames : List String :=
  ["handle", "running", "latest_timestamp", "pending_reset", "totals",
    "units"]

/- The report of a JSON value. -/
def ofJson? (value : Json) : Option SessionReport :=
  match value.allFields? fieldNames with
  | some [handle, running, latest, pendingReset, totals, units] => do
      return ⟨← handle.int32?, ← running.bool?, ← latest.uint64?,
        ← pendingReset.bool?, ← totals.list? totalOfJson?,
        ← units.list? UnitReport.ofJson?⟩
  | _ => none

/- The JSON text of a report, one line for every value. -/
def write (report : SessionReport) : String :=
  report.toJson.pretty

/- The report that a JSON text spells. -/
def read? (text : String) : Option SessionReport :=
  (Json.parse? text).bind ofJson?

end SessionReport

end CoreTally
