import CoreTally.Metric.Report
import CoreTally.Proofs.Json.RoundTrip
import CoreTally.Proofs.Json.Typed

/-
  Reports survive their JSON text. Each part of a report has a
  form that is printed faithfully and read as that part, from
  the entries up to the report as a whole.

  Key definitions include:
    * `SessionReport.renew?`

  Key theorems include:
    * `Entry.ofJson?_toJson`
    * `EventReport.ofJson?_toJson`
    * `UnitReport.ofJson?_toJson`
    * `SessionReport.ofJson?_toJson`
    * `SessionReport.written_reports_are_read`
-/

namespace CoreTally

open Json (Plain)

------------------------------------------------------------
-- Entries
------------------------------------------------------------

theorem Entry.plain_toJson
    (entry : Entry) :
    Plain entry.toJson := by
  apply Plain.record
  simp only [List.forall_mem_cons]
  exact ⟨.int _, .int _, .bool _, by simp⟩

/- An entry is read from its form. -/
theorem Entry.ofJson?_toJson
    (entry : Entry) :
    Entry.ofJson? entry.toJson = some entry := by
  have hFields :
      entry.toJson.allFields?
          ["timestamp", "value", "permanent"] =
        some
          [.nat entry.instant.toNat, .int entry.value.toInt,
            .bool entry.permanent] :=
    Json.allFields?_record (by simp)
  rw [ofJson?, hFields]
  simp only [Json.uint64?_nat, Json.int64?_int]
  rfl

------------------------------------------------------------
-- Reports on Events and Units
------------------------------------------------------------

theorem EventReport.plain_toJson
    (report : EventReport) :
    Plain report.toJson := by
  have hEntries :
      Plain (.array (report.entries.map Entry.toJson)) :=
    .array _ (List.forall_mem_map.mpr fun entry _ =>
      entry.plain_toJson)
  apply Plain.record
  simp only [List.forall_mem_cons]
  exact ⟨.str _, hEntries, .int _, by simp⟩

/- A report on one event is read from its form. -/
theorem EventReport.ofJson?_toJson
    (report : EventReport) :
    EventReport.ofJson? report.toJson = some report := by
  have hFields :
      report.toJson.allFields? ["event", "entries", "latest"] =
        some
          [.str report.event,
            .array (report.entries.map Entry.toJson),
            .int report.latest.toInt] :=
    Json.allFields?_record (by simp)
  have hEntries :
      Json.list? Entry.ofJson?
          (.array (report.entries.map Entry.toJson)) =
        some report.entries :=
    Json.list?_map fun entry _ => entry.ofJson?_toJson
  rw [ofJson?, hFields]
  simp only [hEntries, Json.int64?_int]
  rfl

theorem UnitReport.plain_toJson
    (report : UnitReport) :
    Plain report.toJson := by
  have hEvents :
      Plain (.array (report.events.map EventReport.toJson)) :=
    .array _ (List.forall_mem_map.mpr fun event _ =>
      event.plain_toJson)
  apply Plain.record
  simp only [List.forall_mem_cons]
  exact ⟨.int _, .str _, .int _, hEvents, by simp⟩

/- A report on one unit is read from its form. -/
theorem UnitReport.ofJson?_toJson
    (report : UnitReport) :
    UnitReport.ofJson? report.toJson = some report := by
  have hFields :
      report.toJson.allFields?
          ["unit", "component", "refs", "events"] =
        some
          [.nat report.unit.toNat, .str report.component,
            .nat report.refs.toNat,
            .array (report.events.map EventReport.toJson)] :=
    Json.allFields?_record (by simp)
  have hEvents :
      Json.list? EventReport.ofJson?
          (.array (report.events.map EventReport.toJson)) =
        some report.events :=
    Json.list?_map fun event _ => event.ofJson?_toJson
  rw [ofJson?, hFields]
  simp only [hEvents, Json.uint32?_nat]
  rfl

------------------------------------------------------------
-- Reports
------------------------------------------------------------

namespace SessionReport

theorem plain_totalJson
    (total : String × Count) :
    Plain (totalJson total) := by
  apply Plain.array
  simp only [List.forall_mem_cons]
  exact ⟨.str _, .int _, by simp⟩

/- A total is read from its pair of name and sum. -/
theorem totalOfJson?_totalJson
    (total : String × Count) :
    totalOfJson? (totalJson total) = some total := by
  rw [totalJson, totalOfJson?, Json.int64?_int]
  rfl

theorem plain_toJson
    (report : SessionReport) :
    Plain report.toJson := by
  have hTotals :
      Plain (.array (report.totals.map totalJson)) :=
    .array _ (List.forall_mem_map.mpr fun total _ =>
      plain_totalJson total)
  have hUnits :
      Plain (.array (report.units.map UnitReport.toJson)) :=
    .array _ (List.forall_mem_map.mpr fun one _ =>
      one.plain_toJson)
  apply Plain.record
  simp only [List.forall_mem_cons]
  exact
    ⟨.int _, .bool _, .int _, .bool _, hTotals, hUnits, by simp⟩

/- A report is read from its form. -/
theorem ofJson?_toJson
    (report : SessionReport) :
    SessionReport.ofJson? report.toJson = some report := by
  have hFields :
      report.toJson.allFields? fieldNames =
        some
          [.int report.handle.toInt, .bool report.running,
            .nat report.latest.toNat, .bool report.pendingReset,
            .array (report.totals.map totalJson),
            .array (report.units.map UnitReport.toJson)] :=
    Json.allFields?_record (by simp)
  have hTotals :
      Json.list? totalOfJson?
          (.array (report.totals.map totalJson)) =
        some report.totals :=
    Json.list?_map fun total _ => totalOfJson?_totalJson total
  have hUnits :
      Json.list? UnitReport.ofJson?
          (.array (report.units.map UnitReport.toJson)) =
        some report.units :=
    Json.list?_map fun one _ => one.ofJson?_toJson
  rw [ofJson?, hFields]
  simp only [hTotals, hUnits, Json.int32?_int, Json.uint64?_nat]
  rfl

/- The text of a report that is read and printed again. -/
def renew? (text : String) : Option String :=
  (read? text).map write

/-
  The text of any report is read as that report. A text that
  is accepted as a report is printed in one way only, so that
  to read and print it again changes nothing any more.
-/
theorem written_reports_are_read :
    (∀ report, read? (write report) = some report) ∧
      ∀ text, (renew? text).bind renew? = renew? text := by
  have hRead :
      ∀ report, read? (write report) = some report := by
    intro report
    rw [read?, write, Json.parse?_pretty report.plain_toJson]
    exact report.ofJson?_toJson
  refine ⟨hRead, ?_⟩
  intro text
  unfold renew?
  cases read? text with
  | none => rfl
  | some report =>
      rw [Option.map_some, Option.bind_some, hRead,
        Option.map_some]

end SessionReport

end CoreTally
