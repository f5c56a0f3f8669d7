import CoreTally.Metric.UnitView
import CoreTally.Proofs.Metric.Placement
import CoreTally.Proofs.Session.Reporting
import CoreTally.Proofs.SortedLists
import CoreTally.Proofs.Topology.Traversal

/-
  The view of a hardware thread on some sessions. A session is
  asked for the component of the thread, and for its readings by
  the number of the thread. The component is the one that was
  remembered when the unit joined, perhaps again after it was
  evicted. As long as all calls on the session search the same
  site, this is the component that the search finds, also where
  several threads have one number.

  Key definitions include:
    * `Site.thread?`
    * `Session.Request.At`
    * `Session.Booked`
    * `Session.ArisesAt`
    * `Session.stores`
    * `UnitView.Agrees`

  Key theorems include:
    * `Session.Turn.booked_after`
    * `Session.ledgerOf_induction`
    * `Session.placed_slotAfter`
    * `Session.observes_eq`
    * `UnitView.views_agree_with_sessions`
-/

namespace CoreTally

/- The component of a unit, as it is searched for. -/
def Site.thread?
    (site : Site)
    (unit : UnitId) : Option Nat :=
  site.topology.find? site.root unit .thread

/- What is found for a unit is a thread with its number. -/
theorem Site.hasAt_of_thread?
    {site : Site}
    {unit : UnitId}
    {node : Nat}
    (hThread : site.thread? unit = some node) :
    site.topology.HasAt unit .thread node :=
  (site.topology.hasKindAndId_iff _ _ _).mp
    (List.find?_some hThread)

namespace Session

------------------------------------------------------------
-- Calls at One Site
------------------------------------------------------------

/- All readings of a call are located at a site. -/
def Request.At (site : Site) : Request → Prop
| .start _ | .reset => True
| .observe _ other _ _ | .record other _ _ _ => other = site

/-
  What calls at a site do to a ledger. Values are stored with
  the component that the site has for their unit.
-/
inductive Booked
    (site : Site)
    (ledger : Ledger) : Ledger → Prop
| kept :
    Booked site ledger ledger
| requested :
    Booked site ledger ledger.requestReset
| stored
    (mode : Posting.Mode)
    (batch : Batch)
    (hReadings : batch.readings ≠ [])
    (hThread : site.thread? batch.unit = some batch.node) :
    Booked site ledger (ledger.apply (.store mode batch))

variable {σ : Type}
variable {source : CounterSource σ}
variable {site : Site}
variable {s s₁ : σ}
variable {handle : EventSet}
variable {calls : List CounterSource.Call}
variable {location : Location}

theorem Locating.thread?_eq
    (hLocating :
      Locating source site handle s calls (.ok location) s₁) :
    site.thread? location.unit = some location.node := by
  cases hLocating with
  | located hUnit hNode => exact hNode

theorem Conduct.thread?_eq
    {primitive : Primitive}
    {readings : List Reading}
    (hConduct :
      Conduct source site primitive handle s calls
        (.ok (location, readings)) s₁) :
    site.thread? location.unit = some location.node := by
  cases hConduct with
  | observed hNames hUnit hCall hCount => exact hUnit.thread?_eq

theorem Recording.thread?_eq
    {values : List Count}
    {readings : List Reading}
    (hRecording :
      Recording source site handle values s
        (.ok (location, readings)) s₁) :
    site.thread? location.unit = some location.node := by
  cases hRecording with
  | located hNames hCount hUnit => exact hUnit.thread?_eq

/- To commit readings books them, if their unit is located. -/
theorem booked_commit
    (session : Session)
    (primitive : Primitive)
    (hThread : site.thread? location.unit = some location.node)
    (now : Instant)
    {readings : List Reading}
    (hReadings : readings ≠ [])
    (permanent : Bool) :
    Booked site session.ledger
      (session.commit primitive location now readings
        permanent).1.ledger := by
  rw [commit_eq]
  exact .stored _ _ hReadings hThread

theorem booked_observe
    {session session₁ : Session}
    {primitive : Primitive}
    {now : Instant}
    {permanent : Bool}
    {instant : Instant}
    (hOk :
      observe source site now primitive permanent (s, session) =
        .ok instant (s₁, session₁)) :
    Booked site session.ledger session₁.ledger := by
  rcases exists_conduct source site primitive session.handle s
    with ⟨calls, result, s₂, hConduct⟩
  rw [hConduct.observe_eq] at hOk
  cases result with
  | error failure => contradiction
  | ok observed =>
      have hBooked :=
        booked_commit (session.after primitive) primitive
          hConduct.thread?_eq now hConduct.readings_ne_nil
          permanent
      have hLedger :
          (session.after primitive).ledger = session.ledger := by
        cases primitive <;> rfl
      rw [hLedger] at hBooked
      cases hOk
      exact hBooked

theorem booked_record
    {session session₁ : Session}
    {values : List Count}
    {now : Instant}
    {permanent : Bool}
    {instant : Instant}
    (hOk :
      record source site now values permanent (s, session) =
        .ok instant (s₁, session₁)) :
    Booked site session.ledger session₁.ledger := by
  rcases exists_recording source site session.handle values s
    with ⟨result, s₂, hRecording⟩
  rw [hRecording.record_eq] at hOk
  cases result with
  | error e => contradiction
  | ok recorded =>
      have hBooked :=
        booked_commit session .read hRecording.thread?_eq now
          hRecording.readings_ne_nil permanent
      cases hOk
      exact hBooked

/- Only observed and recorded values come with an instant. -/
theorem booked_of_instant
    {request : Request}
    {slot slot₁ : Option Session}
    {instant : Instant}
    (hAt : request.At site)
    (hOk :
      request.perform source (s, slot) =
        .ok (some instant) (s₁, slot₁)) :
    Booked site (ledgerOf slot) (ledgerOf slot₁) := by
  cases request with
  | start handle =>
      rcases Action.bind_pure_eq_ok hOk with ⟨_, _, hNone⟩
      contradiction
  | reset =>
      rcases Action.bind_pure_eq_ok hOk with ⟨_, _, hNone⟩
      contradiction
  | observe primitive other now permanent =>
      cases hAt
      rcases inSlot_eq_ok hOk with
        ⟨-, -, -, hNone⟩ | ⟨_, _, _, rfl, rfl, hDone, -⟩
      · contradiction
      · exact booked_observe hDone
  | record other now values permanent =>
      cases hAt
      rcases inSlot_eq_ok hOk with
        ⟨-, -, -, hNone⟩ | ⟨_, _, _, rfl, rfl, hDone, -⟩
      · contradiction
      · exact booked_record hDone

/- Whatever a source answers, a call at a site is booked there. -/
theorem Turn.booked_after
    (turn : Turn)
    (hAt : turn.request.At site)
    (slot : Option Session) :
    Booked site (ledgerOf slot) (ledgerOf (turn.after slot)) := by
  rcases effect_perform turn.request turn.source turn.world slot
    with ⟨result, s₁, slot₁, hEffect, hPerform⟩
  have hAfter : turn.after slot = slot₁ := by
    rw [Turn.after, hPerform]
    cases result <;> rfl
  rw [hAfter]
  cases hEffect with
  | failed | halted | vacant => exact .kept
  | created | rebound | reset => exact .requested
  | stored => exact booked_of_instant hAt hPerform

------------------------------------------------------------
-- Participants in Their Places
------------------------------------------------------------

variable {turns : List Turn}
variable {session : Session}

theorem CountsFit.of_prefix
    {done : List Turn}
    (hFit : CountsFit turns)
    (hPrefix : done <+: turns) :
    CountsFit done := by
  intro first hFirst
  exact hFit first (hFirst.trans hPrefix)

/- Series can be counted where there are not too many events. -/
theorem countsFit_of_size
    (hSize :
      turns.inits.all (fun done =>
          (slotAfter done).all fun session =>
            session.ledger.store.size < UInt32.size) =
        true) :
    CountsFit turns := by
  intro done hDone session hSession unit
  have hStored :=
    List.all_eq_true.mp hSize done
      ((List.mem_inits done turns).mpr hDone)
  rw [hSession, Option.all_some, decide_eq_true_iff] at hStored
  exact Nat.lt_of_le_of_lt
    (session.ledger.store.seriesCount_le_size unit) hStored

theorem sound_ledgerOf
    (turns : List Turn) :
    (ledgerOf (slotAfter turns)).store.Sound := by
  cases hSlot : slotAfter turns with
  | none => exact Store.sound_empty
  | some session => exact sound_slotAfter hSlot

theorem counts_ledgerOf
    (hFit : CountsFit turns)
    (unit : UnitId) :
    (ledgerOf (slotAfter turns)).Counts unit := by
  cases hSlot : slotAfter turns with
  | none => exact Ledger.counts_empty unit
  | some session => exact counts_slotAfter hFit hSlot unit

/-
  What holds of the ledger without readings, and goes on to hold
  whatever is booked, holds after any calls at a site.
-/
theorem ledgerOf_induction
    {holds : Ledger → Prop}
    (hAt : ∀ turn ∈ turns, turn.request.At site)
    (hEmpty : holds .empty)
    (hBooked :
      ∀ done, done <+: turns →
        ∀ after, Booked site (ledgerOf (slotAfter done)) after →
          holds (ledgerOf (slotAfter done)) → holds after) :
    holds (ledgerOf (slotAfter turns)) := by
  induction turns using List.reverseRecOn with
  | nil => exact hEmpty
  | append_singleton turns turn ih =>
      have hPrefix : turns <+: turns ++ [turn] :=
        List.prefix_append _ _
      rw [slotAfter_concat]
      refine hBooked turns hPrefix _ ?_ ?_
      · exact turn.booked_after (hAt turn (by simp)) _
      · apply ih
        · exact fun earlier hMem =>
            hAt earlier (List.mem_append_left _ hMem)
        · exact fun done hDone =>
            hBooked done (hDone.trans hPrefix)

/- Participants stand where the search finds their units. -/
theorem placed_slotAfter
    (hAt : ∀ turn ∈ turns, turn.request.At site) :
    (ledgerOf (slotAfter turns)).Placed site.thread? := by
  refine ledgerOf_induction hAt (Ledger.placed_empty _) ?_
  intro done hDone after hBooked hPlaced
  cases hBooked with
  | kept => exact hPlaced
  | requested => exact hPlaced
  | stored mode batch hReadings hThread =>
      exact hPlaced.apply_store mode hThread

/- Participants have series, as long as these can be counted. -/
theorem attended_slotAfter
    (hAt : ∀ turn ∈ turns, turn.request.At site)
    (hFit : CountsFit turns) :
    (ledgerOf (slotAfter turns)).Attended := by
  refine ledgerOf_induction hAt Ledger.attended_empty ?_
  intro done hDone after hBooked hAttended
  cases hBooked with
  | kept => exact hAttended
  | requested => exact hAttended
  | stored mode batch hReadings hThread =>
      have hSound := sound_ledgerOf done
      have hCounts := counts_ledgerOf (hFit.of_prefix hDone)
      exact Ledger.attended_apply_store
        (hAttended.opened_of_counts hCounts
          (fun event => (hSound.every event).distinct) mode)
        hReadings

------------------------------------------------------------
-- Sessions and Components
------------------------------------------------------------

/-
  The session comes from calls at a site, on any sources and in
  any order, that never store more series of a unit than can be
  counted.
-/
def ArisesAt
    (site : Site)
    (session : Session) : Prop :=
  ∃ turns,
    slotAfter turns = some session ∧
      (∀ turn ∈ turns, turn.request.At site) ∧
        CountsFit turns

/- The session has a series of some event on the unit. -/
def stores
    (session : Session)
    (unit : UnitId) : Bool :=
  session.names.any fun event =>
    (session.series? event unit).isSome

/- A unit takes part if it has a series. -/
theorem ArisesAt.contains_iff
    (hArises : session.ArisesAt site)
    (unit : UnitId) :
    session.ledger.participants.contains unit = true ↔
      session.stores unit = true := by
  rcases hArises with ⟨turns, hSlot, hAt, hFit⟩
  have hSound := sound_slotAfter hSlot
  have hCounts := counts_slotAfter hFit hSlot unit
  have hAttended := attended_slotAfter hAt hFit
  rw [hSlot] at hAttended
  have hStores :
      session.stores unit = true ↔
        0 < session.ledger.store.seriesCount unit := by
    rw [Store.seriesCount_pos_iff, stores, List.any_eq_true]
    constructor
    · rintro ⟨event, -, hSeries⟩
      exact ⟨event, hSeries⟩
    · rintro ⟨event, hSeries⟩
      exact ⟨event, (hSound.mem_names_iff event).mpr
        ⟨unit, hSeries⟩, hSeries⟩
  rw [hStores]
  exact ⟨hAttended unit, hCounts.contains⟩

theorem ArisesAt.placed
    (hArises : session.ArisesAt site) :
    session.ledger.Placed site.thread? := by
  rcases hArises with ⟨turns, hSlot, hAt, -⟩
  have hPlaced := placed_slotAfter hAt
  rw [hSlot] at hPlaced
  exact hPlaced

theorem observes_iff
    (session : Session)
    (node : Nat) :
    session.observes node = true ↔
      ∃ unit participant,
        session.ledger.participants.find? unit =
            some participant ∧
          participant.node = node := by
  simp only [observes, List.any_eq_true, beq_iff_eq, Prod.exists,
    OrderedMap.find?_eq_some_iff]

/-
  A session has readings for a thread if it has some for its
  number, and if the thread is the one that is found for it.
-/
theorem observes_eq
    (hArises : session.ArisesAt site)
    {unit : UnitId}
    {node : Nat}
    (hThread : site.topology.HasAt unit .thread node) :
    session.observes node =
      (site.thread? unit == some node &&
        session.stores unit) := by
  rw [Bool.eq_iff_iff, Bool.and_eq_true, beq_iff_eq,
    observes_iff]
  constructor
  · rintro ⟨other, participant, hFound, rfl⟩
    have hPlace := hArises.placed other participant hFound
    -- The component has one number, that of the participant.
    have hSame : other = unit := by
      rcases hThread with ⟨component, hComponent, hId, -⟩
      rcases Site.hasAt_of_thread? hPlace with
        ⟨same, hSame, hOther, -⟩
      rw [hComponent] at hSame
      cases hSame
      rw [← hId, hOther]
    subst hSame
    refine ⟨hPlace, (hArises.contains_iff other).mp ?_⟩
    rw [OrderedMap.contains, hFound]
    rfl
  · rintro ⟨hPlace, hStores⟩
    rcases Option.isSome_iff_exists.mp
        ((hArises.contains_iff unit).mpr hStores) with
      ⟨participant, hFound⟩
    refine ⟨unit, participant, hFound, ?_⟩
    have hOwn := hArises.placed unit participant hFound
    rw [hPlace] at hOwn
    exact (Option.some.inj hOwn).symm

end Session

------------------------------------------------------------
-- Views
------------------------------------------------------------

namespace UnitView

variable {topology : Topology}
variable {node : Nat}
variable {sessions : List Session}
variable {view : UnitView}

/- There is a view of every thread, and of nothing else. -/
theorem of_ok_iff
    (topology : Topology)
    (node : Nat)
    (sessions : List Session) :
    (∃ view, of topology node sessions = .ok view) ↔
      ∃ unit, topology.HasAt unit .thread node := by
  unfold of Topology.HasAt
  cases topology.get? node with
  | none => simp
  | some component =>
      by_cases hKind : component.kind = .thread <;> simp [hKind]

theorem of_eq_ok
    (hView : of topology node sessions = .ok view)
    {unit : UnitId}
    (hThread : topology.HasAt unit .thread node) :
    view.unit = unit ∧
      view.sessions = sessions.filter (·.observes node) := by
  rcases hThread with ⟨component, hComponent, rfl, hKind⟩
  simp only [of, hComponent, if_pos hKind] at hView
  cases hView
  exact ⟨rfl, rfl⟩

/- The event sets are those of the sessions. -/
theorem mem_eventSets_iff
    (view : UnitView)
    (set : EventSet) :
    set ∈ view.eventSets ↔
      ∃ session ∈ view.sessions, session.handle = set := by
  rw [eventSets, SortedLists.mem_sortedItems_iff, List.mem_map]

theorem ascending_eventSets
    (view : UnitView) :
    view.eventSets.Pairwise (· < ·) := by
  have hAscend :=
    SortedLists.pairwise_sortedItems
      (fun a b : EventSet => decide (a ≤ b))
      (by simpa using fun _ _ _ => Int32.le_trans)
      (by simpa using Int32.le_total)
      (by simpa using fun _ _ => Int32.le_antisymm)
      (view.sessions.map Session.handle)
  apply hAscend.imp
  rintro one other ⟨hLe, hOther⟩
  exact Int32.lt_of_le_of_ne (by simpa using hLe) hOther

/- Readings come from the first session of an event set. -/
theorem metric_of_first
    {front rest : List Session}
    {session : Session}
    (hSessions : view.sessions = front ++ session :: rest)
    (hFirst :
      ∀ earlier ∈ front, earlier.handle ≠ session.handle)
    (event : String)
    (at? : Option Instant) :
    view.metric event session.handle at? =
      session.metric event (some view.unit) at? := by
  have hFound : view.session? session.handle = some session := by
    rw [session?, hSessions, List.find?_append,
      List.find?_eq_none.mpr (by simpa using hFirst),
      Option.none_or, List.find?_cons_of_pos (by simp)]
  rw [metric, hFound]

/- There is nothing of an event set without a session. -/
theorem metric_of_missing
    {set : EventSet}
    (hMissing :
      ∀ session ∈ view.sessions, session.handle ≠ set)
    (event : String)
    (at? : Option Instant) :
    view.metric event set at? = 0 := by
  have hNone : view.session? set = none := by
    rw [session?, List.find?_eq_none]
    simpa using hMissing
  rw [metric, hNone]

/-
  The view of a thread agrees with some sessions. It contains,
  in their order, the sessions that store series for the unit,
  if the thread is the one that is found for the unit. It lists
  each of their event sets once, and its readings are those that
  the first of them has for the unit.
-/
structure Agrees
    (view : UnitView)
    (site : Site)
    (sessions : List Session)
    (node : Nat)
    (unit : UnitId) : Prop where
  contained :
    view.sessions =
      if site.thread? unit = some node then
        sessions.filter (·.stores unit)
      else
        []
  ascending : view.eventSets.Pairwise (· < ·)
  listed :
    ∀ set,
      set ∈ view.eventSets ↔
        ∃ session ∈ view.sessions, session.handle = set
  first :
    ∀ front session rest,
      view.sessions = front ++ session :: rest →
        (∀ earlier ∈ front, earlier.handle ≠ session.handle) →
          ∀ event at?,
            view.metric event session.handle at? =
              session.metric event (some unit) at?
  missing :
    ∀ set,
      (∀ session ∈ view.sessions, session.handle ≠ set) →
        ∀ event at?, view.metric event set at? = 0

/-
  Sessions come from any calls that search one site. A component
  has a view of them if it is a thread, and this view agrees
  with the sessions.
-/
theorem views_agree_with_sessions
    (site : Site)
    (sessions : List Session)
    (hSessions :
      ∀ session ∈ sessions, session.ArisesAt site)
    (node : Nat) :
    ((∃ view, of site.topology node sessions = .ok view) ↔
        ∃ unit, site.topology.HasAt unit .thread node) ∧
      ∀ unit view,
        site.topology.HasAt unit .thread node →
          of site.topology node sessions = .ok view →
            view.Agrees site sessions node unit := by
  refine ⟨of_ok_iff _ _ _, ?_⟩
  intro unit view hThread hView
  rcases of_eq_ok hView hThread with ⟨hUnit, hFilter⟩
  refine ⟨?_, view.ascending_eventSets, view.mem_eventSets_iff,
    ?_, fun set => metric_of_missing⟩
  · have hObserves :
        ∀ session ∈ sessions,
          session.observes node =
            (site.thread? unit == some node &&
              session.stores unit) :=
      fun session hMem =>
        Session.observes_eq (hSessions session hMem) hThread
    rw [hFilter, List.filter_congr hObserves]
    by_cases hPlace : site.thread? unit = some node
    · simp [hPlace]
    · simp [hPlace]
  · intro front session rest hFront hFirst event at?
    rw [metric_of_first hFront hFirst, hUnit]

/-
  Two threads have the same number. Two sessions have readings
  for it, and these are seen from the thread that is found.
-/
theorem views_agree_with_sessions_of_twins :
    let topology :=
      ((Topology.empty.addRoot .node 0 "machine").attach
        0 .thread 4 "first").attach 0 .thread 4 "second"
    let site : Site := ⟨topology, 0⟩
    let source := Simulated.source (Resolver.resolve {} {})
    let world (count : Count) (running : Bool) :=
      (Simulated.withDefaultEvents.putSet 1
          ⟨[⟨0x80000032, count⟩], running, .cpu 4⟩).putSet 2
        ⟨[⟨0x8000003b, count⟩], running, .cpu 4⟩
    let turns (set : EventSet) : List Session.Turn :=
      [⟨Simulated, source, world 0 false, .start set⟩,
        ⟨Simulated, source, world 30 true,
          .observe .read site 5 false⟩]
    ∃ second first,
      Session.slotAfter (turns 2) = some second ∧
        Session.slotAfter (turns 1) = some first ∧
        (∃ view,
          of topology 1 [second, first] = .ok view ∧
            view.Agrees site [second, first] 1 4 ∧
            view.sessions = [second, first] ∧
            view.metric "TOT_CYC" 2 none = 30) ∧
        ∃ view,
          of topology 2 [second, first] = .ok view ∧
            view.Agrees site [second, first] 2 4 ∧
            view.sessions = [] := by
  intro topology site source world turns
  have hArises :
      ∀ set session,
        Session.slotAfter (turns set) = some session →
          Session.CountsFit (turns set) →
            session.ArisesAt site := by
    intro set session hSlot hFit
    refine ⟨turns set, hSlot, ?_, hFit⟩
    simp [turns, Session.Request.At]
  have hFitTwo : Session.CountsFit (turns 2) :=
    Session.countsFit_of_size (by decide +kernel)
  have hFitOne : Session.CountsFit (turns 1) :=
    Session.countsFit_of_size (by decide +kernel)
  have hAgree :=
    fun second first hSecond hFirst =>
      views_agree_with_sessions site [second, first]
        (by
          simpa using
            ⟨hArises 2 second hSecond hFitTwo,
              hArises 1 first hFirst hFitOne⟩)
  have hOne : topology.HasAt 4 .thread 1 := ⟨_, rfl, rfl, rfl⟩
  have hTwo : topology.HasAt 4 .thread 2 := ⟨_, rfl, rfl, rfl⟩
  refine ⟨_, _, rfl, rfl,
    ⟨_, rfl, (hAgree _ _ rfl rfl 1).2 4 _ hOne rfl,
      by decide +kernel, by decide +kernel⟩,
    _, rfl, (hAgree _ _ rfl rfl 2).2 4 _ hTwo rfl,
    by decide +kernel⟩

end UnitView

end CoreTally
