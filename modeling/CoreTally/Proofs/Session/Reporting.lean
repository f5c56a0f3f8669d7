import CoreTally.Counter.Simulated
import CoreTally.Metric.Report
import CoreTally.Proofs.Metric.Totals
import CoreTally.Proofs.Session.Printing
import CoreTally.Proofs.Session.Requests

/-
  The report on a session is an image of what the session has
  stored. It joins three tables: the participants, the events
  and the series of each event. That none of them holds more
  than the others do is known of ledgers, so that the calls of
  a session are taken as the operations of its ledger first.

  Key definitions include:
    * `Session.CountsFit`
    * `SessionReport.rows`
    * `SessionReport.latestOf?`
    * `SessionReport.Depicts`
    * `SessionReport.Complete`

  Key theorems include:
    * `Session.exists_history`
    * `UnitReport.length_events`
    * `SessionReport.filter_rows`
    * `SessionReport.report_depicts_session`
-/

namespace CoreTally

open EventSeries

------------------------------------------------------------
-- Ledgers of Sessions
------------------------------------------------------------

namespace Session

/- The ledger of a slot, which has no readings when it is empty. -/
def ledgerOf : Option Session → Ledger
| none => .empty
| some session => session.ledger

/- A call applies one operation to the ledger of a slot, or none. -/
theorem Effect.ledgerOf_eq
    {slot slot' : Option Session}
    {result : Except Error (Option Instant)}
    (hEffect : Effect slot result slot') :
    ledgerOf slot' = ledgerOf slot ∨
      ∃ operation,
        ledgerOf slot' = (ledgerOf slot).apply operation := by
  cases hEffect with
  | failed e slot => exact .inl rfl
  | halted e session => exact .inl rfl
  | vacant => exact .inl rfl
  | created handle => exact .inr ⟨.reset, rfl⟩
  | rebound session handle => exact .inr ⟨.reset, rfl⟩
  | reset session => exact .inr ⟨.reset, rfl⟩
  | stored session running now mode batch hInstant hReadings =>
      exact .inr ⟨.store mode batch, rfl⟩

/-
  Calls make up a history of the ledger. What the ledger is
  along the history, it is after some of the calls.
-/
theorem exists_history
    (turns : List Turn) :
    ∃ history,
      ledgerOf (slotAfter turns) = Ledger.empty.replay history ∧
        ∀ done, done <+: history →
          ∃ earlier, earlier <+: turns ∧
            Ledger.empty.replay done =
              ledgerOf (slotAfter earlier) := by
  induction turns using List.reverseRecOn with
  | nil =>
      refine ⟨[], rfl, ?_⟩
      intro done hDone
      rw [List.prefix_nil.mp hDone]
      exact ⟨[], List.prefix_rfl, rfl⟩
  | append_singleton turns turn ih =>
      rcases ih with ⟨history, hLedger, hAlong⟩
      rcases turn.effect_after (slotAfter turns) with
        ⟨result, hEffect⟩
      have hBefore :
          ∀ done, done <+: history →
            ∃ earlier, earlier <+: turns ++ [turn] ∧
              Ledger.empty.replay done =
                ledgerOf (slotAfter earlier) := by
        intro done hDone
        rcases hAlong done hDone with ⟨earlier, hEarlier, hSame⟩
        exact ⟨earlier, hEarlier.trans (List.prefix_append _ _),
          hSame⟩
      rcases hEffect.ledgerOf_eq with hSame | ⟨operation, hApplied⟩
      · refine ⟨history, ?_, hBefore⟩
        rw [slotAfter_concat, hSame, hLedger]
      · have hAfter :
            ledgerOf (slotAfter (turns ++ [turn])) =
              Ledger.empty.replay (history ++ [operation]) := by
          rw [slotAfter_concat, hApplied, hLedger,
            Ledger.replay_append]
          rfl
        refine ⟨history ++ [operation], hAfter, ?_⟩
        intro done hDone
        rcases List.prefix_concat_iff.mp hDone with rfl | hEarlier
        · exact ⟨turns ++ [turn], List.prefix_rfl, hAfter.symm⟩
        · exact hBefore done hEarlier

/-
  No unit of a session along the way has more series than a
  participant can count.
-/
def CountsFit (turns : List Turn) : Prop :=
  ∀ done, done <+: turns →
    ∀ session, slotAfter done = some session →
      ∀ unit,
        session.ledger.store.seriesCount unit < UInt32.size

variable {turns : List Turn}
variable {session : Session}

/- What a session stores is sound. -/
theorem sound_slotAfter
    (hSession : slotAfter turns = some session) :
    session.ledger.store.Sound := by
  rcases exists_history turns with ⟨history, hLedger, _⟩
  rw [hSession] at hLedger
  rw [show session.ledger = Ledger.empty.replay history from
    hLedger]
  exact Ledger.sound_replay history

/- The series of each unit are counted. -/
theorem counts_slotAfter
    (hFit : CountsFit turns)
    (hSession : slotAfter turns = some session)
    (unit : UnitId) :
    session.ledger.Counts unit := by
  rcases exists_history turns with ⟨history, hLedger, hAlong⟩
  rw [hSession] at hLedger
  rw [show session.ledger = Ledger.empty.replay history from
    hLedger]
  apply Ledger.counts_replay
  intro done hDone
  rcases hAlong done hDone with ⟨earlier, hEarlier, hSame⟩
  rw [hSame]
  cases hSlot : slotAfter earlier with
  | none => exact Nat.zero_lt_succ _
  | some old => exact hFit earlier hEarlier old hSlot unit

end Session

------------------------------------------------------------
-- Reports on Events
------------------------------------------------------------

namespace Session

variable {session : Session}
variable {event : String}
variable {unit : UnitId}

/- The names of stored events ascend. -/
theorem ascending_names
    (session : Session) :
    session.names.Pairwise (· < ·) := by
  unfold names Store.names OrderedMap.keys
  rw [List.pairwise_map]
  apply session.ledger.store.events.sorted.imp
  intro earlier later hLess
  exact compareOfLessAndEq_eq_lt.mp hLess

theorem metric_all
    (session : Session)
    (event : String) :
    session.metric event none none =
      Count.total
        ((session.ledger.store.seriesOf event).map
          (Series.valueAt session.latest)) := by
  rw [← total_valuesAt]
  exact sumFrom_none _ _ _

theorem metric_unit
    {series : Series}
    (hSeries : session.series? event unit = some series) :
    session.metric event (some unit) none =
      series.valueAt session.latest := by
  have hFind :
      (session.ledger.store.seriesOf event).find?
          (·.unit == unit) =
        some series := hSeries
  unfold metric Store.total
  rw [Option.getD_none, sumFrom_some, hFind]

end Session

namespace EventReport

/- The report on a series. -/
def ofSeries
    (session : Session)
    (event : String)
    (series : Series) : EventReport :=
  ⟨event, series.entries, series.valueAt session.latest⟩

/- There is a report if there is a series. -/
theorem of?_eq
    (session : Session)
    (unit : UnitId)
    (event : String) :
    of? session unit event =
      (session.series? event unit).map
        (ofSeries session event) := by
  unfold of?
  cases hSeries : session.series? event unit with
  | none => rfl
  | some series =>
      simp only [Option.map_some, ofSeries,
        Session.metric_unit hSeries]

end EventReport

------------------------------------------------------------
-- Reports on Units
------------------------------------------------------------

namespace UnitReport

variable {session : Session}

/- The events of a unit ascend, as all events do. -/
theorem ascending_events
    (session : Session)
    (topology : Topology)
    (unit : UnitId)
    (participant : Participant) :
    (of session topology unit participant).events.Pairwise
      (·.event < ·.event) := by
  unfold of
  rw [List.pairwise_filterMap]
  apply session.ascending_names.imp
  intro earlier later hLess one hOne other hOther
  rw [EventReport.of?_eq, Option.map_eq_some_iff] at hOne hOther
  rcases hOne with ⟨_, _, rfl⟩
  rcases hOther with ⟨_, _, rfl⟩
  exact hLess

/- There is one report for each series of the unit. -/
theorem mem_events_iff
    (hSound : session.ledger.store.Sound)
    (topology : Topology)
    (unit : UnitId)
    (participant : Participant)
    (row : EventReport) :
    row ∈ (of session topology unit participant).events ↔
      ∃ series,
        session.series? row.event unit = some series ∧
          row = .ofSeries session row.event series := by
  simp only [of, List.mem_filterMap, EventReport.of?_eq,
    Option.map_eq_some_iff]
  constructor
  · rintro ⟨event, _, series, hSeries, rfl⟩
    exact ⟨series, hSeries, rfl⟩
  · rintro ⟨series, hSeries, hRow⟩
    refine ⟨row.event, ?_, series, hSeries, hRow.symm⟩
    apply (hSound.mem_names_iff row.event).mpr
    exact ⟨unit, Option.isSome_iff_exists.mpr ⟨series, hSeries⟩⟩

/- There are as many of them as the unit has series. -/
theorem length_events
    (session : Session)
    (topology : Topology)
    (unit : UnitId)
    (participant : Participant) :
    (of session topology unit participant).events.length =
      session.ledger.store.seriesCount unit := by
  simp only [of, List.length_filterMap_eq_countP, Session.names,
    Store.names, OrderedMap.keys, List.countP_map,
    Store.seriesCount]
  apply List.countP_congr
  intro pair hPair
  rw [Function.comp_apply, EventReport.of?_eq, Option.isSome_map,
    decide_eq_true_iff]
  rw [← Store.seriesOf_eq_of_mem hPair]
  exact Store.isSome_unitSeries?_iff

end UnitReport

------------------------------------------------------------
-- Rows of Reports
------------------------------------------------------------

namespace SessionReport

/- All that is reported, under its unit and event. -/
def rows
    (report : SessionReport) :
    List ((UnitId × String) × EventReport) :=
  report.units.flatMap fun one =>
    one.events.map fun row => ((one.unit, row.event), row)

/- The latest value that is reported for an event on a unit. -/
def latestOf?
    (report : SessionReport)
    (unit : UnitId)
    (event : String) : Option Count :=
  (report.rows.find? (·.1 == (unit, event))).map
    fun row => row.2.latest

variable {session : Session}
variable {topology : Topology}

/- The units of a report ascend. -/
theorem ascending_units
    (session : Session)
    (topology : Topology) :
    (capture session topology).units.Pairwise
      (·.unit < ·.unit) := by
  unfold capture
  rw [List.pairwise_map]
  apply session.ledger.participants.sorted.imp
  intro earlier later hLess
  exact Std.compare_eq_lt.mp hLess

/- The rows of a report ascend, by unit and then by event. -/
theorem ascending_rows
    (session : Session)
    (topology : Topology) :
    (capture session topology).rows.Pairwise fun one other =>
      Prod.Lex (· < ·) (· < ·) one.1 other.1 := by
  unfold rows
  rw [List.pairwise_flatMap]
  constructor
  · intro one hOne
    rcases List.mem_map.mp hOne with ⟨pair, _, rfl⟩
    rw [List.pairwise_map]
    apply (UnitReport.ascending_events session topology _ _).imp
    intro earlier later hLess
    exact .right _ hLess
  · apply (ascending_units session topology).imp
    intro one other hLess row hRow later hLater
    rcases List.mem_map.mp hRow with ⟨_, _, rfl⟩
    rcases List.mem_map.mp hLater with ⟨_, _, rfl⟩
    exact .left _ _ hLess

/- Under different keys, each row is the only one of its key. -/
theorem filter_key_eq
    {α β : Type}
    [BEq α]
    [LawfulBEq α]
    {rows : List (α × β)}
    (hDistinct : rows.Pairwise (·.1 ≠ ·.1))
    {row : α × β}
    (hRow : row ∈ rows) :
    rows.filter (·.1 == row.1) = [row] := by
  induction rows with
  | nil => contradiction
  | cons head rows ih =>
      rcases List.pairwise_cons.mp hDistinct with ⟨hHead, hRest⟩
      rcases List.mem_cons.mp hRow with rfl | hLater
      · have hNone : rows.filter (·.1 == row.1) = [] := by
          rw [List.filter_eq_nil_iff]
          intro other hOther
          simpa using (hHead other hOther).symm
        rw [List.filter_cons_of_pos (by simp), hNone]
      · rw [List.filter_cons_of_neg
          (by simpa using hHead row hLater)]
        exact ih hRest hLater

/- A row is there for every series of a participant. -/
theorem mem_rows
    (hSound : session.ledger.store.Sound)
    {event : String}
    {unit : UnitId}
    {series : Series}
    (hUnit : session.ledger.participants.contains unit = true)
    (hSeries : session.series? event unit = some series) :
    ((unit, event), EventReport.ofSeries session event series) ∈
      (capture session topology).rows := by
  rcases Option.isSome_iff_exists.mp hUnit with
    ⟨participant, hFound⟩
  have hListed :=
    OrderedMap.find?_eq_some_iff.mp hFound
  refine List.mem_flatMap.mpr
    ⟨UnitReport.of session topology unit participant,
      List.mem_map.mpr ⟨_, hListed, rfl⟩,
      List.mem_map.mpr
        ⟨EventReport.ofSeries session event series, ?_, rfl⟩⟩
  exact (UnitReport.mem_events_iff hSound _ _ _ _).mpr
    ⟨series, hSeries, rfl⟩

/- The series of a participant are reported once. -/
theorem filter_rows
    (hSound : session.ledger.store.Sound)
    {event : String}
    {unit : UnitId}
    {series : Series}
    (hUnit : session.ledger.participants.contains unit = true)
    (hSeries : session.series? event unit = some series) :
    (capture session topology).rows.filter
        (·.1 == (unit, event)) =
      [((unit, event),
        EventReport.ofSeries session event series)] := by
  refine filter_key_eq ?_ (mem_rows hSound hUnit hSeries)
  apply (ascending_rows session topology).imp
  intro one other hLess hSame
  rw [hSame, Prod.lex_def] at hLess
  rcases hLess with hUnit | ⟨_, hEvent⟩
  · exact UInt32.lt_irrefl _ hUnit
  · exact String.lt_irrefl _ hEvent

theorem latestOf?_eq
    (hSound : session.ledger.store.Sound)
    {event : String}
    {unit : UnitId}
    {series : Series}
    (hUnit : session.ledger.participants.contains unit = true)
    (hSeries : session.series? event unit = some series) :
    (capture session topology).latestOf? unit event =
      some (series.valueAt session.latest) := by
  rw [latestOf?, ← List.head?_filter,
    filter_rows hSound hUnit hSeries]
  rfl

end SessionReport

------------------------------------------------------------
-- Printed Reports
------------------------------------------------------------

/- The events of a unit are printed as its series are. -/
theorem UnitReport.map_unlines_events
    (session : Session)
    (topology : Topology)
    (unit : UnitId)
    (participant : Participant) :
    (of session topology unit participant).events.map
        (fun row => unlines row.lines) =
      session.names.filterMap fun event =>
        (session.series? event unit).map
          (Session.seriesText event) := by
  unfold of
  rw [List.map_filterMap]
  congr 1
  funext event
  rw [EventReport.of?_eq, Option.map_map]
  congr 1
  funext series
  exact EventReport.unlines_lines _ series rfl

theorem UnitReport.unlines_of
    (session : Session)
    (topology : Topology)
    (unit : UnitId)
    (participant : Participant) :
    unlines (of session topology unit participant).lines =
      s!"metrics on unit {unit}:\n" ++ session.unitText unit := by
  have hHead :
      s!"metrics on unit {unit}:" ++ "\n" =
        s!"metrics on unit {unit}:\n" := String.append_assoc
  rw [lines, unlines_cons, unlines_flatMap, map_unlines_events]
  exact congrArg (· ++ session.unitText unit) hHead

/- A session is printed as the lines of its report are. -/
theorem SessionReport.unlines_capture
    (session : Session)
    (topology : Topology) :
    unlines (capture session topology).lines = session.text := by
  rw [lines, unlines_flatMap, Session.text, Session.units,
    OrderedMap.keys, capture, List.map_map, List.map_map]
  apply congrArg String.join
  apply List.map_congr_left
  intro pair hPair
  exact UnitReport.unlines_of session topology pair.1 pair.2

------------------------------------------------------------
-- Reports as Images
------------------------------------------------------------

namespace SessionReport

/-
  The report lists the participants, with the stored series of
  each, and the stored events. All of them ascend, so that none
  is listed twice. What is printed of the session are lines, in
  which each unit, event and entry of the report has its place.
-/
structure Depicts
    (report : SessionReport)
    (session : Session) : Prop where
  unitsAscend : report.units.Pairwise (·.unit < ·.unit)
  participants :
    ∀ unit,
      unit ∈ report.units.map UnitReport.unit ↔
        session.ledger.participants.contains unit = true
  eventsAscend :
    ∀ one ∈ report.units, one.events.Pairwise (·.event < ·.event)
  events :
    ∀ one ∈ report.units, ∀ event entries,
      (∃ row ∈ one.events,
          row.event = event ∧ row.entries = entries) ↔
        ∃ series,
          session.series? event one.unit = some series ∧
            series.entries = entries
  totalsAscend : report.totals.Pairwise (·.1 < ·.1)
  totals :
    ∀ event,
      event ∈ report.totals.map Prod.fst ↔
        ∃ unit, (session.series? event unit).isSome = true
  printed :
    ∃ lines, report.Listed lines ∧ session.text = unlines lines

/-
  Units count the events that are listed under them, each series
  is found once in the whole report, and each total is the sum
  of what is reported as latest under the units, in the order
  in which their series are stored.
-/
structure Complete
    (report : SessionReport)
    (session : Session) : Prop where
  refs :
    ∀ one ∈ report.units,
      session.refs? one.unit = some one.refs ∧
        one.refs.toNat = one.events.length
  once :
    ∀ event, ∀ series ∈ session.ledger.store.seriesOf event,
      ∃ row,
        report.rows.filter (·.1 == (series.unit, event)) =
            [((series.unit, event), row)] ∧
          row.entries = series.entries
  sums :
    ∀ event sum, (event, sum) ∈ report.totals →
      ∃ latests,
        ((session.ledger.store.seriesOf event).map fun series =>
            report.latestOf? series.unit event) =
          latests.map some ∧
        sum = Count.total latests ∧
        ((∀ first, first <+: latests →
            Count.least ≤ Count.exactTotal first ∧
              Count.exactTotal first ≤ Count.greatest) →
          sum.toInt = Count.exactTotal latests)

variable {session : Session}

theorem depicts_capture
    (hSound : session.ledger.store.Sound)
    (topology : Topology) :
    (capture session topology).Depicts session where
  unitsAscend := ascending_units session topology
  participants := by
    intro unit
    rw [OrderedMap.contains, Option.isSome_iff_exists,
      ← OrderedMap.mem_keys_iff]
    simp [capture, UnitReport.of, OrderedMap.keys]
  eventsAscend := by
    intro one hOne
    rcases List.mem_map.mp hOne with ⟨pair, _, rfl⟩
    exact UnitReport.ascending_events session topology _ _
  events := by
    intro one hOne event entries
    rcases List.mem_map.mp hOne with ⟨pair, _, rfl⟩
    constructor
    · rintro ⟨row, hRow, rfl, rfl⟩
      rcases (UnitReport.mem_events_iff hSound _ _ _ _).mp hRow
        with ⟨series, hSeries, hSame⟩
      refine ⟨series, hSeries, ?_⟩
      rw [hSame]
      rfl
    · rintro ⟨series, hSeries, rfl⟩
      refine ⟨EventReport.ofSeries session event series, ?_, rfl,
        rfl⟩
      exact (UnitReport.mem_events_iff hSound _ _ _ _).mpr
        ⟨series, hSeries, rfl⟩
  totalsAscend := by
    unfold capture
    rw [List.pairwise_map]
    exact session.ascending_names
  totals := by
    intro event
    have hNames :
        (capture session topology).totals.map Prod.fst =
          session.names := by
      simp [capture, Function.comp_def]
    rw [hNames]
    exact hSound.mem_names_iff event
  printed :=
    ⟨_, listed_lines _, (unlines_capture session topology).symm⟩

theorem complete_capture
    (hSound : session.ledger.store.Sound)
    (hCounts : ∀ unit, session.ledger.Counts unit)
    (topology : Topology) :
    (capture session topology).Complete session := by
  -- A unit with a series takes part, since the series is counted.
  have hFound :
      ∀ event, ∀ series ∈ session.ledger.store.seriesOf event,
        session.ledger.participants.contains series.unit = true ∧
          session.series? event series.unit = some series := by
    intro event series hSeries
    have hFind :=
      Store.unitSeries?_of_mem (hSound.every event).distinct
        hSeries
    refine ⟨(hCounts series.unit).contains ?_, hFind⟩
    apply Store.seriesCount_pos_iff.mpr
    exact ⟨event, Option.isSome_iff_exists.mpr ⟨series, hFind⟩⟩
  constructor
  · intro one hOne
    rcases List.mem_map.mp hOne with ⟨pair, hPair, rfl⟩
    have hParticipant :
        session.ledger.participants.find? pair.1 = some pair.2 :=
      OrderedMap.find?_eq_some_iff.mpr hPair
    have hRefs := hCounts pair.1
    rw [Ledger.Counts, Ledger.refsOf, hParticipant] at hRefs
    constructor
    · simp [Session.refs?, UnitReport.of, hParticipant]
    · rw [UnitReport.length_events]
      exact hRefs
  · intro event series hSeries
    rcases hFound event series hSeries with ⟨hUnit, hFind⟩
    exact ⟨_, filter_rows hSound hUnit hFind, rfl⟩
  · intro event sum hTotal
    have hSum : sum = session.metric event none none := by
      rcases List.mem_map.mp hTotal with ⟨_, _, hSame⟩
      cases hSame
      rfl
    rw [Session.metric_all] at hSum
    refine ⟨_, ?_, hSum, ?_⟩
    · rw [List.map_map]
      apply List.map_congr_left
      intro series hSeries
      rcases hFound event series hSeries with ⟨hUnit, hFind⟩
      exact latestOf?_eq hSound hUnit hFind
    · intro hRange
      rw [hSum]
      exact Count.toInt_total_of_prefixes hRange

/-
  The report on any session that calls lead to is an image of
  what it has stored. Where participants can count the series of
  their units, nothing is missing from it.
-/
theorem report_depicts_session
    (turns : List Session.Turn)
    (session : Session)
    (topology : Topology)
    (hSession : Session.slotAfter turns = some session) :
    (capture session topology).Depicts session ∧
      (Session.CountsFit turns →
        (capture session topology).Complete session) := by
  have hSound := Session.sound_slotAfter hSession
  constructor
  · exact depicts_capture hSound topology
  · intro hFit
    exact complete_capture hSound
      (Session.counts_slotAfter hFit hSession) topology

/-
  One unit has accumulated two events for good, and another one
  reports them to a read.
-/
theorem report_depicts_session_of_two_units :
    let world (count : Count) (running : Bool) (unit : UnitId) :=
      Simulated.withDefaultEvents.putSet 1
        ⟨[⟨0x80000032, count⟩, ⟨0x8000003b, count⟩], running,
          .cpu unit⟩
    let source := Simulated.source (Resolver.resolve {} {})
    let topology := Topology.uniform 1 2 1
    let turns : List Session.Turn :=
      [⟨Simulated, source, world 0 false 0, .start 1⟩,
        ⟨Simulated, source, world 200 true 0,
          .observe .accumulate ⟨topology, 0⟩ 5 true⟩,
        ⟨Simulated, source, world 40 true 1,
          .observe .read ⟨topology, 0⟩ 9 false⟩]
    ∃ session,
      Session.slotAfter turns = some session ∧
        Session.CountsFit turns ∧
        (capture session topology).rows.length = 4 ∧
        session.text =
          "metrics on unit 0:\n" ++
            "  TOT_CYC:\n" ++
            "    \x7b timestamp: 5, value: 200, permanent \x7d\n" ++
            "  TOT_INS:\n" ++
            "    \x7b timestamp: 5, value: 200, permanent \x7d\n" ++
            "metrics on unit 1:\n" ++
            "  TOT_CYC:\n" ++
            "    \x7b timestamp: 9, value: 40 \x7d\n" ++
            "  TOT_INS:\n" ++
            "    \x7b timestamp: 9, value: 40 \x7d\n" ∧
        (capture session topology).Depicts session ∧
        (capture session topology).Complete session := by
  intro world source topology turns
  have hFit : Session.CountsFit turns := by
    intro done hDone session hSession unit
    have hAll :
        turns.inits.all (fun done =>
            (Session.slotAfter done).all fun session =>
              session.ledger.store.size < UInt32.size) =
          true := by
      decide +kernel
    have hSize :=
      List.all_eq_true.mp hAll done
        (List.mem_inits done turns |>.mpr hDone)
    rw [hSession, Option.all_some, decide_eq_true_iff] at hSize
    exact Nat.lt_of_le_of_lt
      (session.ledger.store.seriesCount_le_size unit) hSize
  have hReport := report_depicts_session turns _ topology rfl
  exact
    ⟨_, rfl, hFit, by decide +kernel, by decide +kernel,
      hReport.1, hReport.2 hFit⟩

end SessionReport

end CoreTally
