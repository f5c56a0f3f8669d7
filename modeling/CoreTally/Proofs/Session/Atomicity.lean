import CoreTally.Proofs.Counter.Tallies
import CoreTally.Proofs.Session.Requests

/-
  Calls on a session fail without a trace, if the source plays
  by some rules: questions do not change it, operations that
  fail do not either, and there is one value for each event of
  an event set. Simulated sources keep these rules.

  Key definitions include:
    * `Action.Idle`
    * `Action.Retreats`
    * `CounterSource.Transactional`

  Key theorems include:
    * `Session.Conduct.eq_of_error`
    * `Session.Request.retreats_perform`
    * `Simulated.transactional_source`
    * `Simulated.failed_request_changes_nothing`
-/

namespace CoreTally

------------------------------------------------------------
-- Actions That Keep the State
------------------------------------------------------------

namespace Action

variable {ε σ α β δ : Type}

/- An action that leaves the state alone. -/
def Idle (action : Action ε σ α) : Prop :=
  ∀ s, (∃ answer, action s = .ok answer s) ∨
    ∃ e, action s = .error e s

/- An action that leaves the state alone when it fails. -/
def Retreats (action : Action ε σ α) : Prop :=
  ∀ s e s₁, action s = .error e s₁ → s₁ = s

variable {action : Action ε σ α}
variable {s s₁ : σ}

theorem Idle.eq_of_ok
    (hIdle : Idle action)
    {answer : α}
    (hAction : action s = .ok answer s₁) :
    s₁ = s := by
  rcases hIdle s with ⟨_, hSame⟩ | ⟨_, hSame⟩
  · rw [hAction] at hSame
    injection hSame
  · rw [hAction] at hSame
    contradiction

theorem Idle.retreats
    (hIdle : Idle action) :
    Retreats action := by
  intro s e s₁ hAction
  rcases hIdle s with ⟨_, hSame⟩ | ⟨_, hSame⟩
  · rw [hAction] at hSame
    contradiction
  · rw [hAction] at hSame
    injection hSame

theorem idle_answer
    (value : Except ε α) :
    Idle (CounterSource.answer value : Action ε σ α) := by
  intro s
  cases value with
  | error e => exact .inr ⟨e, rfl⟩
  | ok answer => exact .inl ⟨answer, rfl⟩

theorem Idle.adaptExcept
    (hIdle : Idle action)
    (adapt : ε → δ) :
    Idle (action.adaptExcept adapt : Action δ σ α) := by
  intro s
  rcases hIdle s with ⟨answer, hSame⟩ | ⟨e, hSame⟩
  · exact .inl ⟨answer, adaptExcept_ok hSame⟩
  · exact .inr ⟨adapt e, adaptExcept_error hSame⟩

theorem Idle.bind
    (hIdle : Idle action)
    {next : α → Action ε σ β}
    (hNext : ∀ answer, Idle (next answer)) :
    Idle (action >>= next) := by
  intro s
  rcases hIdle s with ⟨answer, hSame⟩ | ⟨e, hSame⟩
  · rw [bind_ok hSame]
    exact hNext answer s
  · exact .inr ⟨e, bind_error hSame⟩

/- What comes after an action may not fail. -/
theorem Retreats.bind_pure
    (hAction : Retreats action)
    (answer : α → β) :
    Retreats (action >>= fun value => pure (answer value)) := by
  intro s e s₁ hFailed
  cases hFirst : action s with
  | ok value s₂ =>
      rw [bind_ok hFirst] at hFailed
      contradiction
  | error cause s₂ =>
      rw [bind_error hFirst] at hFailed
      injection hFailed with _ hState
      rw [← hState]
      exact hAction s cause s₂ hFirst

end Action

open CoreTally.Action (Idle Retreats)

/-
  A source whose operations have no effect but their own. There
  is one value for each event.
-/
structure CounterSource.Transactional
    {σ : Type}
    (source : CounterSource σ) : Prop where
  listEvents : ∀ set, Idle (source.listEvents set)
  eventName : ∀ code, Idle (source.eventName code)
  currentUnit : ∀ set, Idle (source.currentUnit set)
  start : ∀ set, Retreats (source.start set)
  reset : ∀ set, Retreats (source.reset set)
  call :
    ∀ (primitive : Session.Primitive) set,
      Retreats (primitive.call source set)
  counted :
    ∀ (primitive : Session.Primitive) set s codes values s₁,
      source.listEvents set s = .ok codes s →
        primitive.call source set s = .ok values s₁ →
          values.length = codes.length

------------------------------------------------------------
-- Calls That Fail
------------------------------------------------------------

namespace Session

variable {σ : Type}
variable {source : CounterSource σ}
variable {site : Site}
variable {primitive : Primitive}
variable {handle : EventSet}
variable {s s₁ : σ}
variable {calls : List CounterSource.Call}
variable {names : List String}
variable {values : List Count}

theorem Named.eq_of_transactional
    (hSource : source.Transactional)
    {codes : List EventCode}
    (hNamed : Named source codes names s s₁) :
    s₁ = s := by
  induction hNamed with
  | nil s => rfl
  | cons hName _ ih =>
      rw [ih, (hSource.eventName _).eq_of_ok hName]

/- To ask for the names of the events changes nothing. -/
theorem Naming.eq_of_transactional
    (hSource : source.Transactional)
    {result : Except Failure (List String)}
    (hNaming : Naming source handle s calls result s₁) :
    s₁ = s := by
  cases hNaming with
  | unlisted hList =>
      exact (hSource.listEvents _).retreats _ _ _ hList
  | eventless hList => exact (hSource.listEvents _).eq_of_ok hList
  | nameless hList hFront hName =>
      rw [(hSource.eventName _).retreats _ _ _ hName,
        hFront.eq_of_transactional hSource,
        (hSource.listEvents _).eq_of_ok hList]
  | named hList hSome hNames =>
      rw [hNames.eq_of_transactional hSource,
        (hSource.listEvents _).eq_of_ok hList]

/- To ask for the unit that reports changes nothing. -/
theorem Locating.eq_of_transactional
    (hSource : source.Transactional)
    {result : Except Failure Location}
    (hLocating : Locating source site handle s calls result s₁) :
    s₁ = s := by
  cases hLocating with
  | unresolved hUnit =>
      exact (hSource.currentUnit _).retreats _ _ _ hUnit
  | threadless hUnit hNode =>
      exact (hSource.currentUnit _).eq_of_ok hUnit
  | located hUnit hNode =>
      exact (hSource.currentUnit _).eq_of_ok hUnit

/- There are as many names as values of a primitive. -/
theorem Naming.length_eq
    (hSource : source.Transactional)
    (hNaming : Naming source handle s calls (.ok names) s₁)
    {s₂ : σ}
    (hCall : primitive.call source handle s = .ok values s₂) :
    values.length = names.length := by
  cases hNaming with
  | named hList hSome hNames =>
      have hSame := (hSource.listEvents _).eq_of_ok hList
      rw [hSame] at hList
      rw [hNames.length_eq]
      exact hSource.counted _ _ _ _ _ _ hList hCall

/- An observation fails before there is anything to undo. -/
theorem Conduct.eq_of_error
    (hSource : source.Transactional)
    {failure : Failure}
    (hConduct :
      Conduct source site primitive handle s calls
        (.error failure) s₁) :
    s₁ = s ∧ failure.halts = false := by
  cases hConduct with
  | unnamed hNames =>
      exact ⟨hNames.eq_of_transactional hSource,
        hNames.not_halts⟩
  | unlocated hNames hUnit =>
      rw [hUnit.eq_of_transactional hSource,
        hNames.eq_of_transactional hSource]
      exact ⟨rfl, hUnit.not_halts⟩
  | refused hNames hUnit hCall =>
      rw [hSource.call _ _ _ _ _ hCall,
        hUnit.eq_of_transactional hSource,
        hNames.eq_of_transactional hSource]
      exact ⟨rfl, rfl⟩
  | miscounted hNames hUnit hCall hCount =>
      -- This failure would come too late, but it can not happen.
      rw [hUnit.eq_of_transactional hSource,
        hNames.eq_of_transactional hSource] at hCall
      exact absurd (hNames.length_eq hSource hCall) hCount

/- Values are refused before there is anything to undo. -/
theorem Recording.eq_of_error
    (hSource : source.Transactional)
    {e : Error}
    (hRecording :
      Recording source site handle values s (.error e) s₁) :
    s₁ = s := by
  cases hRecording with
  | unnamed hNames => exact hNames.eq_of_transactional hSource
  | uneven hNames hCount =>
      exact hNames.eq_of_transactional hSource
  | unlocated hNames hCount hUnit =>
      rw [hUnit.eq_of_transactional hSource,
        hNames.eq_of_transactional hSource]

theorem retreats_start
    (hSource : source.Transactional)
    (handle : EventSet) :
    Retreats (start source handle) := by
  rintro ⟨s, slot⟩ e left hFailed
  cases hStart : source.start handle s with
  | ok _ s₁ => cases slot <;> simp [start, hStart] at hFailed
  | error cause s₁ =>
      simp only [start, hStart,
        hSource.start _ _ _ _ hStart] at hFailed
      injection hFailed with _ hLeft
      exact hLeft.symm

theorem retreats_reset
    (hSource : source.Transactional) :
    Retreats (reset source) := by
  rintro ⟨s, session⟩ e left hFailed
  cases hReset : source.reset session.handle s with
  | ok _ s₁ => simp [reset, hReset] at hFailed
  | error cause s₁ =>
      simp only [reset, hReset,
        hSource.reset _ _ _ _ hReset] at hFailed
      injection hFailed with _ hLeft
      exact hLeft.symm

theorem retreats_observe
    (hSource : source.Transactional)
    (site : Site)
    (now : Instant)
    (primitive : Primitive)
    (permanent : Bool) :
    Retreats (observe source site now primitive permanent) := by
  rintro ⟨s, session⟩ e left hFailed
  rcases exists_conduct source site primitive session.handle s
    with ⟨calls, result, s₁, hConduct⟩
  rw [hConduct.observe_eq now permanent] at hFailed
  cases result with
  | ok observed => contradiction
  | error failure =>
      have hSame := hConduct.eq_of_error hSource
      rw [conclude, Failure.left_of_not_halts _ hSame.2,
        hSame.1] at hFailed
      injection hFailed with _ hLeft
      exact hLeft.symm

theorem retreats_record
    (hSource : source.Transactional)
    (site : Site)
    (now : Instant)
    (values : List Count)
    (permanent : Bool) :
    Retreats (record source site now values permanent) := by
  rintro ⟨s, session⟩ e left hFailed
  rcases exists_recording source site session.handle values s
    with ⟨result, s₁, hRecording⟩
  rw [hRecording.record_eq now permanent] at hFailed
  cases result with
  | ok recorded => contradiction
  | error cause =>
      rw [concludeRecord, hRecording.eq_of_error hSource]
        at hFailed
      injection hFailed with _ hLeft
      exact hLeft.symm

/- What fails in a slot fails for the session that it holds. -/
theorem retreats_inSlot
    {α : Type}
    {action : Action Error (σ × Session) α}
    (hAction : Retreats action) :
    Retreats (inSlot action) := by
  rintro ⟨s, slot⟩ e left hFailed
  cases slot with
  | none => contradiction
  | some session =>
      cases hSession : action (s, session) with
      | ok answer next => simp [inSlot, hSession] at hFailed
      | error cause next =>
          have hSame := hAction _ _ _ hSession
          simp only [inSlot, hSession, hSame] at hFailed
          injection hFailed with _ hLeft
          exact hLeft.symm

/- A call that fails leaves the source and the slot alone. -/
theorem Request.retreats_perform
    (hSource : source.Transactional)
    (request : Request) :
    Retreats (request.perform source) := by
  cases request with
  | start handle =>
      exact (retreats_start hSource handle).bind_pure _
  | reset =>
      exact (retreats_inSlot (retreats_reset hSource)).bind_pure _
  | observe primitive site now permanent =>
      exact retreats_inSlot
        (retreats_observe hSource site now primitive permanent)
  | record site now values permanent =>
      exact retreats_inSlot
        (retreats_record hSource site now values permanent)

end Session

------------------------------------------------------------
-- Simulated Sources
------------------------------------------------------------

namespace Simulated

theorem idle_askSet
    {α : Type}
    (handle : EventSet)
    (ask : SimulatedSet → α) :
    Idle (askSet handle ask) := by
  intro s
  cases hFind : s.sets.find? handle with
  | none =>
      refine .inr ⟨noSet handle, ?_⟩
      simp only [askSet, hFind]
  | some set =>
      refine .inl ⟨ask set, ?_⟩
      simp only [askSet, hFind]

theorem idle_eventName
    (code : EventCode) :
    Idle (eventName code) := by
  intro s
  cases hEvent : s.event? code with
  | none =>
      refine .inr ⟨unknownCode code, ?_⟩
      simp only [eventName, hEvent]
  | some event =>
      refine .inl ⟨event.name, ?_⟩
      simp only [eventName, hEvent]

theorem retreats_onSet
    {α : Type}
    (handle : EventSet)
    (operate :
      SimulatedSet → Except BackendError (α × SimulatedSet)) :
    Retreats (onSet handle operate) := by
  intro s e s₁ hFailed
  unfold onSet at hFailed
  split at hFailed
  · injection hFailed with _ hState
    exact hState.symm
  · split at hFailed
    · injection hFailed with _ hState
      exact hState.symm
    · contradiction

/- A primitive takes the counts of the set, one for each event. -/
theorem length_take
    {handle : EventSet}
    {change : SimulatedSet → SimulatedSet}
    {s s₁ : Simulated}
    {codes : List EventCode}
    {values : List Count}
    (hCodes : askSet handle SimulatedSet.codes s = .ok codes s)
    (hTake : take handle change s = .ok values s₁) :
    values.length = codes.length := by
  cases hFind : s.sets.find? handle with
  | none => simp [askSet, hFind] at hCodes
  | some set =>
      simp only [askSet, hFind] at hCodes
      injection hCodes with hCodes
      by_cases hRunning : set.running = true
      · rw [take_eq hFind hRunning] at hTake
        injection hTake with hValues
        rw [← hValues, ← hCodes]
        simp [SimulatedSet.counts, SimulatedSet.codes]
      · simp [take, onSet, hFind, hRunning] at hTake

/- Simulated sources keep the rules, however units are found. -/
theorem transactional_source
    (resolve : UnitBinding → Except Error UnitId) :
    (source resolve).Transactional where
  listEvents := fun set => idle_askSet set _
  eventName := idle_eventName
  currentUnit := fun set =>
    ((idle_askSet set _).adaptExcept _).bind
      fun _ => Action.idle_answer _
  start := fun set => retreats_onSet set _
  reset := fun set =>
    retreats_onSet set fun old => .ok ((), old.zeroed)
  call := by
    intro primitive set
    cases primitive <;> exact retreats_onSet set _
  counted := by
    intro primitive set s codes values s₁ hCodes hCall
    cases primitive <;> exact length_take hCodes hCall

/-
  On a simulated source, in any state and with any bindings, a
  call that fails changes neither the source nor the slot.
-/
theorem failed_request_changes_nothing
    (resolve : UnitBinding → Except Error UnitId)
    (request : Session.Request)
    {s : Simulated}
    {slot : Option Session}
    {e : Error}
    {after : Simulated × Option Session}
    (hFailed :
      request.perform (source resolve) (s, slot) =
        .error e after) :
    after = (s, slot) :=
  request.retreats_perform (transactional_source resolve)
    (s, slot) e after hFailed

/- The set is on a processor that the topology does not have. -/
theorem failed_request_changes_nothing_astray :
    let source := source (Resolver.resolve {} {})
    let set : SimulatedSet :=
      ⟨[⟨0x80000032, 200⟩], true, .cpu 7⟩
    let s := withDefaultEvents.putSet 1 set
    let slot := some (Session.fresh 1)
    let request : Session.Request :=
      .observe .stop ⟨.uniform 1 2 1, 0⟩ 5 true
    ∃ after,
      request.perform source (s, slot) =
          .error (.argument (.noThread 7)) after ∧
        after = (s, slot) := by
  intro source set s slot request
  have hFailed :
      request.perform source (s, slot) =
        .error (.argument (.noThread 7)) (s, slot) := rfl
  exact ⟨_, hFailed,
    failed_request_changes_nothing _ request hFailed⟩

end Simulated

end CoreTally
