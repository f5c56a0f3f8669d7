import CoreTally.Counter.Simulated
import CoreTally.Proofs.Metric.PendingReset
import CoreTally.Proofs.Metric.References
import CoreTally.Proofs.Session.Requests

/-
  The instants of a session. A call that stores values returns
  an instant that no earlier call has returned, whatever the
  clock shows, and no series has two entries for one instant
  if event sets list each of their events once.

  Calls are made at any instants here, in any order. A clock
  shows some instant, whether it stands still, goes back, fails
  or overflows.

  Key definitions include:
    * `Series.Chronological`
    * `Session.Answered`
    * `Session.Turn.Orderly`
    * `Session.Moved`

  Key theorems include:
    * `Ledger.chronologicalOn_apply`
    * `Session.Turn.moved_after`
    * `Session.le_latest_of_answered`
    * `Session.chronological_slotAfter`
    * `Session.instants_never_repeat`
-/

namespace CoreTally

------------------------------------------------------------
-- Chronological Series
------------------------------------------------------------

namespace Series

/- Instants ascend, and none is later than a bound. -/
structure Chronological
    (bound : Instant)
    (series : Series) : Prop where
  ascending : series.Ascending
  within : series.Within bound

variable {bound next : Instant}
variable {series : Series}

theorem chronological_nil
    (bound : Instant)
    (unit : UnitId) :
    Chronological bound ⟨unit, []⟩ := by
  constructor
  · exact List.Pairwise.nil
  · simp [Within]

theorem Chronological.purge
    (hChronological : series.Chronological bound) :
    series.purge.Chronological bound :=
  ⟨hChronological.ascending.purge, hChronological.within.purge⟩

theorem Chronological.purge_push
    (hChronological : series.Chronological bound)
    (entry : Entry)
    (hLater : bound < entry.instant) :
    (series.purge.push entry).Chronological entry.instant where
  ascending :=
    hChronological.ascending.purge_push hChronological.within
      entry hLater
  within :=
    hChronological.within.purge_push entry (UInt64.le_of_lt hLater)

theorem Chronological.carry
    (hChronological : series.Chronological bound)
    (hLater : bound < next) :
    (series.carry bound next).Chronological next where
  ascending :=
    hChronological.ascending.carry hChronological.within hLater
  within :=
    hChronological.within.carry bound (UInt64.le_of_lt hLater)

/- A bound may be replaced with a later one. -/
theorem Chronological.mono
    (hChronological : series.Chronological bound)
    (hLater : bound ≤ next) :
    series.Chronological next := by
  refine ⟨hChronological.ascending, ?_⟩
  intro entry hEntry
  exact UInt64.le_trans (hChronological.within entry hEntry) hLater

end Series

------------------------------------------------------------
-- Chronological Ledgers
------------------------------------------------------------

namespace Ledger

open EventSeries (Every every_nil)

/- All series of an event are chronological. -/
def ChronologicalOn
    (ledger : Ledger)
    (event : String) : Prop :=
  Every (Series.Chronological ledger.latest)
    (ledger.store.seriesOf event)

variable {ledger : Ledger}
variable {event : String}

/-
  An event that is listed at most once gets at most one entry
  for the instant, which is a later one.
-/
theorem chronologicalOn_apply
    (hChronological : ledger.ChronologicalOn event)
    {operation : Operation}
    (hAdvances : ledger.Advances operation)
    (hDistinct : operation.events.Nodup) :
    (ledger.apply operation).ChronologicalOn event := by
  cases operation with
  | reset => exact hChronological
  | store mode batch =>
      have hOpened :
          Every (Series.Chronological ledger.latest)
            ((ledger.opened mode).store.seriesOf event) :=
        every_opened hChronological (fun _ hOne => hOne.purge)
          mode
      rw [ChronologicalOn, latest_apply_store, seriesOf_apply,
        Batch.valuesOf_of_distinct hDistinct]
      cases batch.readings.find? (·.event == event) with
      | none =>
          apply hOpened.imp
          intro one hOne
          exact hOne.mono (UInt64.le_of_lt hAdvances)
      | some reading =>
          apply hOpened.change (batch.posting ledger) mode
            reading.value
          · exact Series.chronological_nil _ _
          · intro one hOne
            exact hOne.purge_push
              ((batch.posting ledger).entry _) hAdvances
          · intro one hOne
            exact hOne.carry hAdvances

end Ledger

namespace Session

variable {σ : Type}
variable {source : CounterSource σ}
variable {site : Site}
variable {handle : EventSet}
variable {s s₁ : σ}
variable {calls : List CounterSource.Call}
variable {names : List String}
variable {values : List Count}

------------------------------------------------------------
-- Stored Events
------------------------------------------------------------

/- Paired with as many values, names are those of events. -/
theorem events_pair
    (hCount : names.length = values.length) :
    (pair names values).map Reading.event = names := by
  induction names generalizing values with
  | nil => rfl
  | cons name names ih =>
      cases values with
      | nil => contradiction
      | cons value values =>
          exact congrArg (name :: ·) (ih (Nat.succ.inj hCount))

/- The names of an event set are the events observed. -/
theorem Conduct.eventNames_eq
    {primitive : Primitive}
    {location : Location}
    {readings : List Reading}
    (hConduct :
      Conduct source site primitive handle s calls
        (.ok (location, readings)) s₁) :
    ∃ s₂, eventNames source handle s =
      .ok (readings.map Reading.event) s₂ := by
  cases hConduct with
  | observed hNames hUnit hCall hCount =>
      rw [events_pair hCount.symm]
      exact ⟨_, hNames.eventNames_eq⟩

/- The names of an event set are the events recorded. -/
theorem Recording.eventNames_eq
    {location : Location}
    {readings : List Reading}
    (hRecording :
      Recording source site handle values s
        (.ok (location, readings)) s₁) :
    ∃ s₂, eventNames source handle s =
      .ok (readings.map Reading.event) s₂ := by
  cases hRecording with
  | located hNames hCount hUnit =>
      rw [events_pair hCount]
      exact ⟨_, hNames.eventNames_eq⟩

------------------------------------------------------------
-- Answers
------------------------------------------------------------

/- The call stores values when it succeeds. -/
def Request.Stores : Request → Prop
| start _ => False
| reset => False
| observe _ _ _ _ => True
| record _ _ _ _ => True

instance :
    (request : Request) → Decidable request.Stores
| .start _ => inferInstanceAs (Decidable False)
| .reset => inferInstanceAs (Decidable False)
| .observe _ _ _ _ => inferInstanceAs (Decidable True)
| .record _ _ _ _ => inferInstanceAs (Decidable True)

/- What is done with the session of a slot answers something. -/
theorem isSome_of_inSlot_ok
    {α : Type}
    {action : Action Error (σ × Session) α}
    {session : Session}
    {answer : Option α}
    {after : σ × Option Session}
    (hAction :
      inSlot action (s, some session) = .ok answer after) :
    answer.isSome = true := by
  cases hDone : action (s, session) with
  | ok value after' =>
      rw [inSlot_ok hDone] at hAction
      cases hAction
      rfl
  | error e after' =>
      rw [inSlot_error hDone] at hAction
      contradiction

/- On a session, the calls that store are those with an answer. -/
theorem Request.isSome_answer_iff
    {request : Request}
    {session : Session}
    {answer : Option Instant}
    {after : σ × Option Session}
    (hPerform :
      request.perform source (s, some session) =
        .ok answer after) :
    answer.isSome = true ↔ request.Stores := by
  cases request with
  | start handle =>
      cases hStart :
          Session.start source handle (s, some session) with
      | ok _ after' =>
          rw [Request.perform, Action.bind_ok hStart] at hPerform
          cases hPerform
          simp [Stores]
      | error e after' =>
          rw [Request.perform, Action.bind_error hStart]
            at hPerform
          contradiction
  | reset =>
      cases hReset :
          inSlot (Session.reset source) (s, some session) with
      | ok _ after' =>
          rw [Request.perform, Action.bind_ok hReset] at hPerform
          cases hPerform
          simp [Stores]
      | error e after' =>
          rw [Request.perform, Action.bind_error hReset]
            at hPerform
          contradiction
  | observe primitive site now permanent =>
      simp [Stores, isSome_of_inSlot_ok hPerform]
  | record site now values permanent =>
      simp [Stores, isSome_of_inSlot_ok hPerform]

/- The instant that a call returns, if it stores values. -/
def Turn.answer?
    (turn : Turn)
    (slot : Option Session) : Option Instant :=
  match turn.request.perform turn.source (turn.world, slot) with
  | .ok answer _ => answer
  | .error _ _ => none

/- One of some calls, made in turn, has returned an instant. -/
def Answered
    (turns : List Turn)
    (instant : Instant) : Prop :=
  ∃ done turn, done ++ [turn] <+: turns ∧
    turn.answer? (slotAfter done) = some instant

/- The last call, or one of those before. -/
theorem concat_prefix_concat
    {done turns : List Turn}
    {other turn : Turn}
    (hPrefix : done ++ [other] <+: turns ++ [turn]) :
    done ++ [other] <+: turns ∨ done = turns ∧ other = turn := by
  rcases List.prefix_concat_iff.mp hPrefix with hLast | hEarlier
  · rcases List.append_inj' hLast rfl with ⟨hDone, hTurn⟩
    exact .inr ⟨hDone, List.singleton_inj.mp hTurn⟩
  · exact .inl hEarlier

theorem not_answered_nil
    (instant : Instant) :
    ¬ Answered [] instant := by
  rintro ⟨done, turn, hPrefix, _⟩
  simp at hPrefix

theorem answered_concat
    {turns : List Turn}
    {turn : Turn}
    {instant : Instant}
    (hAnswered : Answered (turns ++ [turn]) instant) :
    Answered turns instant ∨
      turn.answer? (slotAfter turns) = some instant := by
  rcases hAnswered with ⟨done, other, hPrefix, hAnswer⟩
  rcases concat_prefix_concat hPrefix with
    hEarlier | ⟨rfl, rfl⟩
  · exact .inl ⟨done, other, hEarlier, hAnswer⟩
  · exact .inr hAnswer

------------------------------------------------------------
-- Latest Instants
------------------------------------------------------------

/- An effect never takes the latest instant back. -/
theorem Effect.latest_le
    {session : Session}
    {result : Except Error (Option Instant)}
    {slot : Option Session}
    (hEffect : Effect (some session) result slot) :
    ∃ later, slot = some later ∧
      session.latest ≤ later.latest := by
  cases hEffect with
  | failed e => exact ⟨_, rfl, UInt64.le_refl _⟩
  | halted e => exact ⟨_, rfl, UInt64.le_refl _⟩
  | rebound => exact ⟨_, rfl, UInt64.le_refl _⟩
  | reset => exact ⟨_, rfl, UInt64.le_refl _⟩
  | stored _ running now mode batch hInstant hReadings =>
      refine ⟨_, rfl, ?_⟩
      rw [latest, latest, Ledger.latest_apply_store, hInstant,
        UInt64.le_iff_toNat_le, Instant.toNat_next]
      have hRange := session.latest.toNat_lt
      simp only [latest, Instant.greatest] at hRange ⊢
      omega

/- A returned instant is the latest one, and the next one. -/
theorem Effect.latest_eq
    {slot slot' : Option Session}
    {instant : Instant}
    (hEffect : Effect slot (.ok (some instant)) slot') :
    ∃ session later now, slot = some session ∧
      slot' = some later ∧
      later.latest = instant ∧
      instant = Instant.next now session.latest := by
  cases hEffect with
  | stored session running now mode batch hInstant hReadings =>
      exact ⟨session, _, now, rfl, rfl,
        Ledger.latest_apply_store _ _ _, hInstant⟩

/- What a successful call returns is the answer of its effect. -/
theorem Request.effect_of_ok
    {request : Request}
    {slot slot' : Option Session}
    {answer : Option Instant}
    (hPerform :
      request.perform source (s, slot) =
        .ok answer (s₁, slot')) :
    Effect slot (.ok answer) slot' := by
  rcases effect_perform request source s slot with
    ⟨result, s₂, slot'', hEffect, hSame⟩
  rw [hPerform] at hSame
  cases result with
  | error e => contradiction
  | ok other =>
      cases hSame
      exact hEffect

/- A call has some effect, with the instant that it returns. -/
theorem Turn.effect_answer
    (turn : Turn)
    (slot : Option Session) :
    ∃ result, Effect slot result (turn.after slot) ∧
      ∀ instant, turn.answer? slot = some instant →
        result = .ok (some instant) := by
  rcases effect_perform turn.request turn.source turn.world slot
    with ⟨result, s₁, slot', hEffect, hPerform⟩
  rw [Turn.after, Turn.answer?, hPerform]
  cases result with
  | error e => exact ⟨_, hEffect, by simp [Action.ending]⟩
  | ok answer =>
      refine ⟨_, hEffect, ?_⟩
      intro instant hAnswer
      exact congrArg Except.ok hAnswer

/- No call has returned an instant after the latest one. -/
theorem le_latest_of_answered
    {turns : List Turn}
    {instant : Instant}
    (hAnswered : Answered turns instant) :
    ∃ session, slotAfter turns = some session ∧
      instant ≤ session.latest := by
  induction turns using List.reverseRecOn with
  | nil => exact absurd hAnswered (not_answered_nil instant)
  | append_singleton turns turn ih =>
      rcases turn.effect_answer (slotAfter turns) with
        ⟨result, hEffect, hResult⟩
      rw [slotAfter_concat]
      rcases answered_concat hAnswered with hEarlier | hLast
      · rcases ih hEarlier with ⟨session, hSession, hLatest⟩
        rw [hSession] at hEffect ⊢
        rcases hEffect.latest_le with ⟨later, hLater, hOrder⟩
        exact ⟨later, hLater, UInt64.le_trans hLatest hOrder⟩
      · rw [hResult instant hLast] at hEffect
        rcases hEffect.latest_eq with
          ⟨_, later, _, _, hLater, hLatest, _⟩
        exact ⟨later, hLater, hLatest ▸ UInt64.le_refl _⟩

------------------------------------------------------------
-- Orderly Turns
------------------------------------------------------------

/-
  There are instants left for the call, and the event set of
  the session lists each event once.
-/
structure Turn.Orderly
    (turn : Turn)
    (session : Session) : Prop where
  early : session.latest.toNat < Instant.greatest
  distinct :
    ∀ names world,
      eventNames turn.source session.handle turn.world =
          .ok names world →
        names.Nodup

/-
  A session keeps its ledger, or has one operation applied to
  it that goes on in time and lists each event once.
-/
inductive Moved (session : Session) : Session → Prop
| kept
    (later : Session)
    (hKept : later.ledger = session.ledger) :
    Moved session later
| applied
    (later : Session)
    (operation : Ledger.Operation)
    (hApplied :
      later.ledger = session.ledger.apply operation)
    (hAdvances : session.ledger.Advances operation)
    (hDistinct : operation.events.Nodup) :
    Moved session later

/- Readings of distinct events may be committed in time. -/
theorem moved_commit
    {session old : Session}
    (hOld : old.ledger = session.ledger)
    (primitive : Primitive)
    (location : Location)
    (now : Instant)
    {readings : List Reading}
    (permanent : Bool)
    (hEarly : session.latest.toNat < Instant.greatest)
    (hDistinct : (readings.map Reading.event).Nodup) :
    session.Moved
      (old.commit primitive location now readings
        permanent).1 := by
  rw [commit_eq, latest, hOld]
  exact .applied _ _ rfl (Instant.lt_next hEarly) hDistinct

/- The slot after a call is the one that its action ends with. -/
theorem Turn.after_eq
    {turn : Turn}
    {slot slot' : Option Session}
    {result : Except Error (Option Instant)}
    {world : turn.World}
    (hPerform :
      turn.request.perform turn.source (turn.world, slot) =
        Action.ending (world, slot') result) :
    turn.after slot = slot' := by
  rw [Turn.after, hPerform]
  cases result <;> rfl

/- A call that stores nothing at most marks a pending reset. -/
theorem Turn.moved_of_not_stores
    {turn : Turn}
    (session : Session)
    (hStores : ¬ turn.request.Stores) :
    ∃ later, turn.after (some session) = some later ∧
      session.Moved later := by
  rcases effect_perform turn.request turn.source turn.world
      (some session) with
    ⟨result, s₁, slot, hEffect, hPerform⟩
  rw [Turn.after_eq hPerform]
  cases hEffect with
  | failed e => exact ⟨_, rfl, .kept _ rfl⟩
  | halted e => exact ⟨_, rfl, .kept _ rfl⟩
  | rebound =>
      exact ⟨_, rfl,
        .applied _ .reset rfl trivial List.nodup_nil⟩
  | reset =>
      exact ⟨_, rfl,
        .applied _ .reset rfl trivial List.nodup_nil⟩
  | stored =>
      have hAnswer := Request.isSome_answer_iff hPerform
      exact absurd (hAnswer.mp rfl) hStores

/-
  A call at which there are instants left moves a session on,
  if the events are distinct.
-/
theorem Turn.moved_after
    {turn : Turn}
    {session : Session}
    (hOrderly : turn.request.Stores → turn.Orderly session) :
    ∃ later, turn.after (some session) = some later ∧
      session.Moved later := by
  rcases turn with ⟨World, source, world, request⟩
  cases request with
  | start handle => exact moved_of_not_stores session id
  | reset => exact moved_of_not_stores session id
  | observe primitive site now permanent =>
      rcases hOrderly trivial with ⟨hEarly, hDistinct⟩
      rcases exists_conduct source site primitive session.handle
          world with
        ⟨calls, result, s₁, hConduct⟩
      have hObserve := hConduct.observe_eq now permanent
      cases result with
      | error failure =>
          rw [Turn.after, Request.perform, inSlot_error hObserve]
          exact ⟨_, rfl, .kept _ rfl⟩
      | ok observed =>
          rcases hConduct.eventNames_eq with ⟨s₂, hNames⟩
          have hAfter :
              (session.after primitive).ledger =
                session.ledger := by
            cases primitive <;> rfl
          rw [Turn.after, Request.perform, inSlot_ok hObserve]
          exact ⟨_, rfl,
            moved_commit hAfter primitive observed.1 now
              permanent hEarly (hDistinct _ _ hNames)⟩
  | record site now values permanent =>
      rcases hOrderly trivial with ⟨hEarly, hDistinct⟩
      rcases exists_recording source site session.handle values
          world with
        ⟨result, s₁, hRecording⟩
      have hRecord := hRecording.record_eq now permanent
      cases result with
      | error e =>
          rw [Turn.after, Request.perform, inSlot_error hRecord]
          exact ⟨_, rfl, .kept _ rfl⟩
      | ok recorded =>
          rcases hRecording.eventNames_eq with ⟨s₂, hNames⟩
          rw [Turn.after, Request.perform, inSlot_ok hRecord]
          exact ⟨_, rfl,
            moved_commit rfl .read recorded.1 now permanent
              hEarly (hDistinct _ _ hNames)⟩

/- Each call that stores finds its session in order. -/
def AllOrderly (turns : List Turn) : Prop :=
  ∀ done turn, done ++ [turn] <+: turns →
    turn.request.Stores →
      ∀ session, slotAfter done = some session →
        turn.Orderly session

theorem AllOrderly.of_concat
    {turns : List Turn}
    {turn : Turn}
    (hAll : AllOrderly (turns ++ [turn])) :
    AllOrderly turns := by
  intro done other hPrefix
  exact hAll done other (hPrefix.trans (List.prefix_append _ _))

theorem allOrderly_nil : AllOrderly [] := by
  intro done turn hPrefix
  simp at hPrefix

theorem AllOrderly.concat
    {turns : List Turn}
    {turn : Turn}
    (hAll : AllOrderly turns)
    (hLast :
      turn.request.Stores →
        ∀ session, slotAfter turns = some session →
          turn.Orderly session) :
    AllOrderly (turns ++ [turn]) := by
  intro done other hPrefix
  rcases concat_prefix_concat hPrefix with
    hEarlier | ⟨rfl, rfl⟩
  · exact hAll done other hEarlier
  · exact hLast

/- A session that has just been created has no series. -/
theorem chronologicalOn_of_created
    {turn : Turn}
    {session : Session}
    (hSession : turn.after none = some session)
    (event : String) :
    session.ledger.ChronologicalOn event := by
  rcases turn.effect_after none with ⟨result, hEffect⟩
  rw [hSession] at hEffect
  cases hEffect with
  | created handle => exact EventSeries.every_nil _

/- In a session, the series of all events are chronological. -/
theorem chronological_slotAfter
    {turns : List Turn}
    {session : Session}
    (hAll : AllOrderly turns)
    (hSession : slotAfter turns = some session)
    (event : String) :
    session.ledger.ChronologicalOn event := by
  induction turns using List.reverseRecOn generalizing session with
  | nil => contradiction
  | append_singleton turns turn ih =>
      -- The call finds no session, and creates an empty one at
      -- most, or it moves on one that is chronological already.
      rw [slotAfter_concat] at hSession
      cases hSlot : slotAfter turns with
      | none =>
          rw [hSlot] at hSession
          exact chronologicalOn_of_created hSession event
      | some old =>
          have hOrderly := fun hStores =>
            hAll turns turn List.prefix_rfl hStores old hSlot
          rcases turn.moved_after hOrderly with
            ⟨later, hLater, hMoved⟩
          rw [hSlot, hLater] at hSession
          cases hSession
          have hOld := ih hAll.of_concat hSlot
          cases hMoved with
          | kept hKept =>
              rw [hKept]
              exact hOld
          | applied operation hApplied hAdvances hDistinct =>
              rw [hApplied]
              exact Ledger.chronologicalOn_apply hOld hAdvances
                hDistinct

------------------------------------------------------------
-- Main Result
------------------------------------------------------------

/-
  While instants are left, every call that stores values and
  succeeds returns a later instant than all calls before it,
  which is then the latest one. If event sets moreover list
  distinct events, the instants of each series ascend and none
  is after the latest one, so that each occurs once.
-/
theorem instants_never_repeat :
    (∀ turns session (turn : Turn) answer world slot,
      slotAfter turns = some session →
      session.latest.toNat < Instant.greatest →
      turn.request.Stores →
      turn.request.perform turn.source
          (turn.world, some session) =
        .ok answer (world, slot) →
        ∃ instant later,
          answer = some instant ∧
            slot = some later ∧
            later.latest = instant ∧
            ∀ earlier, Answered turns earlier →
              earlier < instant) ∧
      ∀ turns session,
        slotAfter turns = some session →
        AllOrderly turns →
          ∀ event, ∀ series ∈ session.ledger.store.seriesOf event,
            series.Ascending ∧
              series.Within session.latest ∧
              ∀ instant,
                (series.entries.filter
                    (·.instant == instant)).length ≤ 1 := by
  constructor
  · intro turns session turn answer world slot hSession hEarly
      hStores hPerform
    have hSome := (Request.isSome_answer_iff hPerform).mpr hStores
    rcases Option.isSome_iff_exists.mp hSome with
      ⟨instant, rfl⟩
    rcases (Request.effect_of_ok hPerform).latest_eq with
      ⟨_, later, now, hBefore, rfl, hLatest, hNext⟩
    cases hBefore
    refine ⟨instant, later, rfl, rfl, hLatest, ?_⟩
    intro earlier hAnswered
    rcases le_latest_of_answered hAnswered with
      ⟨same, hSame, hOrder⟩
    rw [hSession] at hSame
    cases hSame
    rw [hNext]
    exact UInt64.lt_of_le_of_lt hOrder (Instant.lt_next hEarly)
  · intro turns session hSession hAll event series hSeries
    have hSound := chronological_slotAfter hAll hSession event
    have hOne := hSound.each series hSeries
    exact ⟨hOne.ascending, hOne.within,
      hOne.ascending.length_filter_le_one⟩

/-
  A unit accumulates two events. The clock goes back before
  another unit reads them, and fails before values are recorded.
-/
theorem instants_never_repeat_failing_clock :
    let world (count : Count) (running : Bool) (unit : UnitId) :=
      Simulated.withDefaultEvents.putSet 1
        ⟨[⟨0x80000032, count⟩, ⟨0x8000003b, count⟩], running,
          .cpu unit⟩
    let source := Simulated.source (Resolver.resolve {} {})
    let site : Site := ⟨.uniform 1 2 1, 0⟩
    let turns : List Turn :=
      [⟨Simulated, source, world 0 false 0, .start 1⟩,
        ⟨Simulated, source, world 200 true 0,
          .observe .accumulate site (Clock.reading 0 500).now
            true⟩,
        ⟨Simulated, source, world 40 true 1,
          .observe .read site (Clock.reading 0 300).now false⟩]
    let turn : Turn :=
      ⟨Simulated, source, world 50 true 1,
        .record site Clock.failing.now [70, 90] false⟩
    ∃ session later world,
      slotAfter turns = some session ∧
        session.latest.toNat < Instant.greatest ∧
        turn.request.Stores ∧
        turn.request.perform turn.source
            (turn.world, some session) =
          .ok (some 502) (world, some later) ∧
        later.latest = 502 ∧
        (∀ earlier, Answered turns earlier → earlier < 502) ∧
        AllOrderly turns ∧
        ∀ event, ∀ series ∈ session.ledger.store.seriesOf event,
          series.Ascending ∧
            series.Within session.latest ∧
            ∀ instant,
              (series.entries.filter
                  (·.instant == instant)).length ≤ 1 := by
  intro world source site turns turn
  have hAll : AllOrderly turns := by
    refine ((allOrderly_nil.concat ?_).concat ?_).concat ?_
    · exact fun hStores => absurd hStores id
    · intro hStores session hSession
      cases hSession
      refine ⟨by decide +kernel, ?_⟩
      intro names world hNames
      cases hNames
      decide
    · intro hStores session hSession
      cases hSession
      refine ⟨by decide +kernel, ?_⟩
      intro names world hNames
      cases hNames
      decide
  let session : Session :=
    (slotAfter turns).get (by decide +kernel)
  have hSession : slotAfter turns = some session :=
    (Option.some_get _).symm
  have hEarly : session.latest.toNat < Instant.greatest := by
    decide +kernel
  have hPerform :
      ∃ later,
        turn.request.perform turn.source
            (turn.world, some session) =
          .ok (some 502) (turn.world, some later) :=
    ⟨_, rfl⟩
  rcases hPerform with ⟨later, hPerform⟩
  rcases instants_never_repeat.1 turns session turn _ _ _ hSession
      hEarly trivial hPerform with
    ⟨instant, same, hInstant, hSlot, hLatest, hEarlier⟩
  cases hInstant
  cases hSlot
  exact
    ⟨session, _, turn.world, hSession, hEarly, trivial, hPerform,
      hLatest, hEarlier, hAll,
      instants_never_repeat.2 turns session hSession hAll⟩

end Session

end CoreTally
