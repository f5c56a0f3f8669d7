import CoreTally.Proofs.Counter.Confinement
import CoreTally.Proofs.Session.Requests

/-
  Workers that share a simulated source, each with an event set
  and a session slot of its own, do not notice each other. In
  whatever order their operations are carried out, every worker
  has the answers and ends with the session and the event set
  that it has when it works alone.

  Key definitions include:
    * `Scope.withSlot`
    * `Worker`
    * `Worker.Job`
    * `Worker.runAlone`
    * `Crew`
    * `Crew.run`

  Key theorems include:
    * `Session.Request.confines_perform`
    * `Worker.confines_perform`
    * `Crew.run_like_alone`
    * `Crew.workers_do_not_interfere`
-/

namespace CoreTally

open CoreTally.Scope (confines_answer confines_pure confines_throw)

------------------------------------------------------------
-- Sessions within a Scope
------------------------------------------------------------

section Slots

variable {σ : Type}

/- A scope and the session that follows an event set there. -/
def Scope.withSession
    (scope : Scope σ)
    (handle : EventSet) : Scope (σ × Session) where
  same s t :=
    scope.same s.1 t.1 ∧ s.2 = t.2 ∧ s.2.handle = handle
  spared s t := scope.spared s.1 t.1
  spared_refl s := scope.spared_refl s.1
  spared_trans h₁ h₂ := scope.spared_trans h₁ h₂

/- A slot is empty, or its session follows an event set. -/
def Session.Bound
    (handle : EventSet)
    (slot : Option Session) : Prop :=
  ∀ session ∈ slot, session.handle = handle

/- A scope and a slot for the sessions of an event set. -/
def Scope.withSlot
    (scope : Scope σ)
    (handle : EventSet) : Scope (σ × Option Session) where
  same s t :=
    scope.same s.1 t.1 ∧ s.2 = t.2 ∧ Session.Bound handle s.2
  spared s t := scope.spared s.1 t.1
  spared_refl s := scope.spared_refl s.1
  spared_trans h₁ h₂ := scope.spared_trans h₁ h₂

namespace Session

variable {source : CounterSource σ}
variable {scope : Scope σ}
variable {handle : EventSet}

theorem bound_some
    {session : Session}
    (hHandle : session.handle = handle) :
    Bound handle (some session) := by
  intro other hOther
  rw [← Option.some.inj hOther]
  exact hHandle

theorem confines_eventNames
    (hSource : source.ConfinedTo scope handle) :
    scope.Confines (eventNames source handle) := by
  refine (hSource.listEvents.adaptExcept _).bind fun codes => ?_
  by_cases hSome : codes.isEmpty = true
  · rw [if_pos hSome]
    exact confines_throw _
  · rw [if_neg hSome]
    exact Scope.Confines.mapM
      (fun code => (hSource.eventName code).adaptExcept _) codes

theorem confines_locate
    (hSource : source.ConfinedTo scope handle)
    (site : Site) :
    scope.Confines (locate source site handle) :=
  hSource.currentUnit.bind fun _ => confines_answer _

/- The questions that come before an observation. -/
theorem confines_survey
    (hSource : source.ConfinedTo scope handle)
    (site : Site) :
    scope.Confines
      (do
        let names ← eventNames source handle
        let location ← locate source site handle
        return (names, location)) :=
  (confines_eventNames hSource).bind fun _ =>
    (confines_locate hSource site).bind fun _ => confines_pure _

theorem handle_after
    (session : Session)
    (primitive : Primitive) :
    (session.after primitive).handle = session.handle := by
  unfold after
  split <;> rfl

/- An observation reads, and stores in its own session. -/
theorem confines_observe
    (hSource : source.ConfinedTo scope handle)
    (site : Site)
    (now : Instant)
    (primitive : Primitive)
    (permanent : Bool) :
    (scope.withSession handle).Confines
      (observe source site now primitive permanent) := by
  rintro ⟨s, session⟩ ⟨t, _⟩ ⟨hSame, rfl, hHandle⟩
  dsimp only at hHandle
  subst hHandle
  rcases (confines_survey hSource site).endings hSame with
    ⟨⟨names, location⟩, s₁, t₁, hLeft, hRight, hSame, hSpared⟩ |
    ⟨e, s₁, t₁, hLeft, hRight, hSame, hSpared⟩
  · rcases (hSource.call primitive).endings hSame with
      ⟨values, s₂, t₂, hCall, hOther, hSame, hMore⟩ |
      ⟨e, s₂, t₂, hCall, hOther, hSame, hMore⟩
    · have hSpared := scope.spared_trans hSpared hMore
      simp only [observe, hLeft, hRight, hCall, hOther]
      by_cases hCount : values.length = names.length
      · simp only [if_pos hCount, commit_eq]
        exact .ok _ ⟨hSame, rfl, handle_after _ _⟩ hSpared
      · simp only [if_neg hCount]
        exact .error _ ⟨hSame, rfl, handle_after _ _⟩ hSpared
    · simp only [observe, hLeft, hRight, hCall, hOther]
      exact .error _ ⟨hSame, rfl, rfl⟩
        (scope.spared_trans hSpared hMore)
  · simp only [observe, hLeft, hRight]
    exact .error e ⟨hSame, rfl, rfl⟩ hSpared

/- The questions that come before values are recorded. -/
theorem confines_inspection
    (hSource : source.ConfinedTo scope handle)
    (site : Site)
    (values : List Count) :
    scope.Confines
      (do
        let names ← eventNames source handle
        if names.length = values.length then
          let location ← locate source site handle
          return (names, location)
        else
          throw
            (.argument
              (.valueCount handle names.length values.length))) := by
  refine (confines_eventNames hSource).bind fun names => ?_
  by_cases hCount : names.length = values.length
  · rw [if_pos hCount]
    exact (confines_locate hSource site).bind
      fun _ => confines_pure _
  · rw [if_neg hCount]
    exact confines_throw _

theorem confines_record
    (hSource : source.ConfinedTo scope handle)
    (site : Site)
    (now : Instant)
    (values : List Count)
    (permanent : Bool) :
    (scope.withSession handle).Confines
      (record source site now values permanent) := by
  rintro ⟨s, session⟩ ⟨t, _⟩ ⟨hSame, rfl, hHandle⟩
  dsimp only at hHandle
  subst hHandle
  rcases (confines_inspection hSource site values).endings hSame
    with
    ⟨⟨names, location⟩, s₁, t₁, hLeft, hRight, hSame, hSpared⟩ |
    ⟨e, s₁, t₁, hLeft, hRight, hSame, hSpared⟩
  · simp only [record, hLeft, hRight, commit_eq]
    exact .ok _ ⟨hSame, rfl, rfl⟩ hSpared
  · simp only [record, hLeft, hRight]
    exact .error e ⟨hSame, rfl, rfl⟩ hSpared

theorem confines_reset
    (hSource : source.ConfinedTo scope handle) :
    (scope.withSession handle).Confines (reset source) := by
  rintro ⟨s, session⟩ ⟨t, _⟩ ⟨hSame, rfl, hHandle⟩
  dsimp only at hHandle
  subst hHandle
  rcases hSource.reset.endings hSame with
    ⟨_, s₁, t₁, hLeft, hRight, hSame, hSpared⟩ |
    ⟨e, s₁, t₁, hLeft, hRight, hSame, hSpared⟩
  · simp only [reset, hLeft, hRight]
    exact .ok () ⟨hSame, rfl, rfl⟩ hSpared
  · simp only [reset, hLeft, hRight]
    exact .error _ ⟨hSame, rfl, rfl⟩ hSpared

/- A start binds the slot to the event set that it starts. -/
theorem confines_start
    (hSource : source.ConfinedTo scope handle) :
    (scope.withSlot handle).Confines (start source handle) := by
  rintro ⟨s, slot⟩ ⟨t, _⟩ ⟨hSame, rfl, hBound⟩
  dsimp only at hSame hBound
  rcases hSource.start.endings hSame with
    ⟨_, s₁, t₁, hLeft, hRight, hSame, hSpared⟩ |
    ⟨e, s₁, t₁, hLeft, hRight, hSame, hSpared⟩
  · cases slot with
    | none =>
        simp only [start, hLeft, hRight]
        exact .ok () ⟨hSame, rfl, bound_some rfl⟩ hSpared
    | some session =>
        simp only [start, hLeft, hRight]
        exact .ok () ⟨hSame, rfl, bound_some rfl⟩ hSpared
  · simp only [start, hLeft, hRight]
    exact .error _ ⟨hSame, rfl, hBound⟩ hSpared

/- What is confined to a session is confined to its slot. -/
theorem confines_inSlot
    {α : Type}
    {action : Action Error (σ × Session) α}
    (hAction : (scope.withSession handle).Confines action) :
    (scope.withSlot handle).Confines (inSlot action) := by
  rintro ⟨s, slot⟩ ⟨t, _⟩ ⟨hSame, rfl, hBound⟩
  dsimp only at hSame hBound
  cases slot with
  | none =>
      exact .ok none ⟨hSame, rfl, hBound⟩ (scope.spared_refl s)
  | some session =>
      have hSession :
          (scope.withSession handle).same (s, session)
            (t, session) :=
        ⟨hSame, rfl, hBound session rfl⟩
      rcases hAction.endings hSession with
        ⟨answer, ⟨s₁, kept⟩, ⟨t₁, _⟩, hLeft, hRight,
          ⟨hSame, rfl, hHandle⟩, hSpared⟩ |
        ⟨e, ⟨s₁, kept⟩, ⟨t₁, _⟩, hLeft, hRight,
          ⟨hSame, rfl, hHandle⟩, hSpared⟩
      · rw [inSlot_ok hLeft, inSlot_ok hRight]
        exact .ok _ ⟨hSame, rfl, bound_some hHandle⟩ hSpared
      · rw [inSlot_error hLeft, inSlot_error hRight]
        exact .error e ⟨hSame, rfl, bound_some hHandle⟩ hSpared

/- A call names no event set, or the one of its slot. -/
def Request.Concerns
    (handle : EventSet) : Request → Prop
| .start started => started = handle
| _ => True

/- A call on a slot stays with the slot and its event set. -/
theorem Request.confines_perform
    (hSource : source.ConfinedTo scope handle)
    {request : Request}
    (hConcerns : request.Concerns handle) :
    (scope.withSlot handle).Confines (request.perform source) := by
  cases request with
  | start started =>
      rw [show started = handle from hConcerns]
      exact (confines_start hSource).bind fun _ => confines_pure _
  | reset =>
      exact (confines_inSlot (confines_reset hSource)).bind
        fun _ => confines_pure _
  | observe primitive site now permanent =>
      exact confines_inSlot
        (confines_observe hSource site now primitive permanent)
  | record site now values permanent =>
      exact confines_inSlot
        (confines_record hSource site now values permanent)

end Session

/- What is done to the source alone leaves every slot alone. -/
def Session.besideSlot
    {ε α : Type}
    (action : Action ε σ α) : Action ε (σ × Option Session) α :=
  fun (s, slot) =>
    match action s with
    | .ok answer s => .ok answer (s, slot)
    | .error e s => .error e (s, slot)

theorem Session.confines_besideSlot
    {ε α : Type}
    {scope : Scope σ}
    {handle : EventSet}
    {action : Action ε σ α}
    (hAction : scope.Confines action) :
    (scope.withSlot handle).Confines (besideSlot action) := by
  rintro ⟨s, slot⟩ ⟨t, _⟩ ⟨hSame, rfl, hBound⟩
  rcases hAction.endings hSame with
    ⟨answer, s₁, t₁, hLeft, hRight, hSame, hSpared⟩ |
    ⟨e, s₁, t₁, hLeft, hRight, hSame, hSpared⟩
  · simp only [besideSlot, hLeft, hRight]
    exact .ok answer ⟨hSame, rfl, hBound⟩ hSpared
  · simp only [besideSlot, hLeft, hRight]
    exact .error e ⟨hSame, rfl, hBound⟩ hSpared

end Slots

------------------------------------------------------------
-- Workers
------------------------------------------------------------

/-
  A worker owns an event set, finds the units of tasks in its
  own way and locates its readings in a part of a topology.
-/
structure Worker where
  handle : EventSet
  resolver : Resolver
  site : Site

/- What a worker can do to its event set and its slot. -/
inductive Job where
| addEvent (code : EventCode)
| addRawEvent (code : EventCode)
| setBinding (binding : UnitBinding)
| migrate (unit : UnitId)
| execute (work : UInt64)
| start
| reset
| observe (primitive : Session.Primitive) (permanent : Bool)
| record (values : List Count) (permanent : Bool)

namespace Worker

/- A job on the event set only, that has nothing to answer. -/
def inSource
    (action : Action BackendError Simulated Unit) :
    Action Error (Simulated × Option Session) (Option Instant) :=
  Session.besideSlot do
    action.adaptExcept Error.backend
    return none

/- A job on the slot, with the units as the machine has them. -/
def onSlot
    (worker : Worker)
    (machine : Machine)
    (request : Session.Request) :
    Action Error (Simulated × Option Session) (Option Instant) :=
  request.perform
    (Simulated.source (worker.resolver.resolve machine))

/-
  Do a job on a machine. The answer is the instant under which
  readings were stored, if there are some.
-/
def perform
    (worker : Worker)
    (machine : Machine) :
    Job →
      Action Error (Simulated × Option Session) (Option Instant)
| .addEvent code =>
    inSource (Simulated.addEvent worker.handle code)
| .addRawEvent code =>
    inSource (Simulated.addRawEvent worker.handle code)
| .setBinding binding =>
    inSource (Simulated.setBinding worker.handle binding)
| .migrate unit =>
    inSource (Simulated.migrate worker.handle unit)
| .execute work =>
    inSource (Simulated.execute worker.handle work)
| .start => worker.onSlot machine (.start worker.handle)
| .reset => worker.onSlot machine .reset
| .observe primitive permanent =>
    worker.onSlot machine
      (.observe primitive worker.site machine.clock.now permanent)
| .record values permanent =>
    worker.onSlot machine
      (.record worker.site machine.clock.now values permanent)

/- What is the worker's own: its event set and its slot. -/
def scope (worker : Worker) : Scope (Simulated × Option Session) :=
  (Simulated.scope worker.handle).withSlot worker.handle

theorem confines_inSource
    (worker : Worker)
    {action : Action BackendError Simulated Unit}
    (hAction : (Simulated.scope worker.handle).Confines action) :
    worker.scope.Confines (inSource action) :=
  Session.confines_besideSlot
    ((hAction.adaptExcept _).bind fun _ => confines_pure _)

theorem confines_onSlot
    (worker : Worker)
    (machine : Machine)
    {request : Session.Request}
    (hConcerns : request.Concerns worker.handle) :
    worker.scope.Confines (worker.onSlot machine request) :=
  request.confines_perform
    (Simulated.confined_source _ worker.handle) hConcerns

/- Whatever a worker does, it keeps to what is its own. -/
theorem confines_perform
    (worker : Worker)
    (machine : Machine)
    (job : Job) :
    worker.scope.Confines (worker.perform machine job) := by
  cases job with
  | addEvent code =>
      exact worker.confines_inSource
        (Simulated.confines_addEvent _ code)
  | addRawEvent code =>
      exact worker.confines_inSource
        (Simulated.confines_addRawEvent _ code)
  | setBinding binding =>
      exact worker.confines_inSource
        (Simulated.confines_setBinding _ binding)
  | migrate unit =>
      exact worker.confines_inSource
        (Simulated.confines_setBinding _ (.cpu unit))
  | execute work =>
      exact worker.confines_inSource
        (Simulated.confines_execute _ work)
  | start => exact worker.confines_onSlot machine rfl
  | reset => exact worker.confines_onSlot machine trivial
  | observe primitive permanent =>
      exact worker.confines_onSlot machine trivial
  | record values permanent =>
      exact worker.confines_onSlot machine trivial

------------------------------------------------------------
-- Working Alone
------------------------------------------------------------

/-
  The answers to some jobs, done one after the other, and what
  they leave. A job that fails does not keep the next one from
  being done.
-/
def runAlone
    (worker : Worker) :
    List (Machine × Job) →
      Simulated × Option Session →
        List (Except Error (Option Instant)) ×
          (Simulated × Option Session)
| [], s => ([], s)
| (machine, job) :: jobs, s =>
    let done := Action.attempt (worker.perform machine job) s
    let later := worker.runAlone jobs done.2
    (done.1 :: later.1, later.2)

end Worker

------------------------------------------------------------
-- Working Together
------------------------------------------------------------

/- Workers that share a source. -/
def Crew (ι : Type) : Type :=
  ι → Worker

namespace Crew

variable {ι : Type}

/- A job of one of the workers, with the machine it runs on. -/
structure Step (ι : Type) where
  who : ι
  machine : Machine
  job : Job

/- The source and the slots of all workers. -/
structure Shared (ι : Type) where
  source : Simulated
  slots : ι → Option Session

/- What a worker finds there. -/
def Shared.of
    (shared : Shared ι)
    (who : ι) : Simulated × Option Session :=
  (shared.source, shared.slots who)

/- The answer to a job, and what it makes of the source and slot. -/
def perform
    (crew : Crew ι)
    (step : Step ι)
    (shared : Shared ι) :
    Except Error (Option Instant) × (Simulated × Option Session) :=
  Action.attempt ((crew step.who).perform step.machine step.job)
    (shared.of step.who)

/- Every slot is empty, or bound to the event set of its worker. -/
def Housed
    (crew : Crew ι)
    (shared : Shared ι) : Prop :=
  ∀ who, Session.Bound (crew who).handle (shared.slots who)

variable {crew : Crew ι}
variable {shared : Shared ι}
variable {alone : Simulated × Option Session}

/- A job is done in company as it is done alone. -/
theorem perform_alike
    (step : Step ι)
    (hSame :
      (crew step.who).scope.same (shared.of step.who) alone) :
    let done := crew.perform step shared
    let own :=
      Action.attempt ((crew step.who).perform step.machine step.job)
        alone
    done.1 = own.1 ∧
      (crew step.who).scope.same done.2 own.2 ∧
        (crew step.who).scope.spared (shared.of step.who) done.2 :=
  ((crew step.who).confines_perform step.machine step.job).attempt
    hSame

theorem Housed.same_refl
    (hHoused : crew.Housed shared)
    (who : ι) :
    (crew who).scope.same (shared.of who) (shared.of who) :=
  ⟨⟨rfl, rfl⟩, rfl, hHoused who⟩

variable [DecidableEq ι]

/- The source and the slots after a worker has changed its own. -/
def Shared.update
    (shared : Shared ι)
    (who : ι)
    (own : Simulated × Option Session) : Shared ι where
  source := own.1
  slots := Function.update shared.slots who own.2

/-
  The answers to the jobs of all workers, each with the worker
  that has got it, and what the jobs leave.
-/
def run
    (crew : Crew ι) :
    List (Step ι) →
      Shared ι → List (ι × Except Error (Option Instant)) × Shared ι
| [], shared => ([], shared)
| step :: steps, shared =>
    let done := crew.perform step shared
    let later := crew.run steps (shared.update step.who done.2)
    ((step.who, done.1) :: later.1, later.2)

/- The jobs of one worker, in their order. -/
def jobsOf
    (who : ι)
    (steps : List (Step ι)) : List (Machine × Job) :=
  (steps.filter fun step => step.who = who).map fun step =>
    (step.machine, step.job)

/- The answers that one worker has got, in their order. -/
def answersTo
    (who : ι)
    (log : List (ι × Except Error (Option Instant))) :
    List (Except Error (Option Instant)) :=
  (log.filter fun entry => entry.1 = who).map Prod.snd

@[simp] theorem of_update_self
    (shared : Shared ι)
    (who : ι)
    (own : Simulated × Option Session) :
    (shared.update who own).of who = own := by
  simp [Shared.update, Shared.of]

theorem of_update_of_ne
    (shared : Shared ι)
    {who other : ι}
    (hOther : other ≠ who)
    (own : Simulated × Option Session) :
    (shared.update who own).of other =
      (own.1, shared.slots other) := by
  simp [Shared.update, Shared.of, Function.update_of_ne hOther]

/- Slots stay with the event sets of their workers. -/
theorem Housed.update
    (hHoused : crew.Housed shared)
    (step : Step ι) :
    crew.Housed
      (shared.update step.who (crew.perform step shared).2) := by
  have hDone := perform_alike step (hHoused.same_refl step.who)
  intro who
  by_cases hWho : who = step.who
  · subst hWho
    simpa [Shared.update] using hDone.2.1.2.2
  · simpa [Shared.update, Function.update_of_ne hWho] using
      hHoused who

/-
  A job of another worker, who owns another event set, is not
  noticed.
-/
theorem same_update_of_ne
    {who : ι}
    {step : Step ι}
    (hOther : (crew who).handle ≠ (crew step.who).handle)
    (hHoused : crew.Housed shared)
    (hSame : (crew who).scope.same (shared.of who) alone) :
    (crew who).scope.same
      ((shared.update step.who
        (crew.perform step shared).2).of who)
      alone := by
  have hDone := perform_alike step (hHoused.same_refl step.who)
  have hWho : who ≠ step.who := fun hWho => hOther (by rw [hWho])
  rw [of_update_of_ne _ hWho]
  exact ⟨Simulated.same_of_spared hOther hDone.2.2 hSame.1,
    hSame.2⟩

/-
  From states that look the same to a worker, working together
  looks the same as working alone.
-/
theorem run_like_alone
    (hHandles : Function.Injective fun who => (crew who).handle)
    (who : ι)
    (steps : List (Step ι)) :
    ∀ {shared : Shared ι} {alone : Simulated × Option Session},
      crew.Housed shared →
        (crew who).scope.same (shared.of who) alone →
          let together := crew.run steps shared
          let own := (crew who).runAlone (jobsOf who steps) alone
          answersTo who together.1 = own.1 ∧
            (crew who).scope.same (together.2.of who) own.2 := by
  induction steps with
  | nil =>
      intro shared alone hHoused hSame
      exact ⟨rfl, hSame⟩
  | cons step steps ih =>
      intro shared alone hHoused hSame
      by_cases hWho : step.who = who
      · subst hWho
        -- The job is also the next one of the worker alone.
        have hDone := perform_alike step hSame
        have hLater :=
          ih (hHoused.update step)
            (by simpa using hDone.2.1)
        simp only [run, jobsOf, answersTo, List.filter_cons,
          decide_true, if_true, List.map_cons,
          Worker.runAlone] at hLater ⊢
        exact ⟨congrArg₂ List.cons hDone.1 hLater.1, hLater.2⟩
      · -- The worker alone has nothing to do in the meantime.
        have hOther :
            (crew who).handle ≠ (crew step.who).handle :=
          fun hHandle => hWho (hHandles hHandle).symm
        have hLater :=
          ih (hHoused.update step)
            (same_update_of_ne hOther hHoused hSame)
        simpa [run, jobsOf, answersTo, hWho] using hLater

/-
  Workers with event sets of their own do not interfere. In any
  order of their jobs, each of them gets the same answers as
  when it does its own jobs alone, on the same machines, and it
  ends with the same session and the same event set.
-/
theorem workers_do_not_interfere
    (crew : Crew ι)
    (hHandles : Function.Injective fun who => (crew who).handle)
    (steps : List (Step ι))
    (shared : Shared ι)
    (hHoused : crew.Housed shared)
    (who : ι) :
    let together := crew.run steps shared
    let alone :=
      (crew who).runAlone (jobsOf who steps)
        (shared.source, shared.slots who)
    answersTo who together.1 = alone.1 ∧
      together.2.slots who = alone.2.2 ∧
        together.2.source.sets.find? (crew who).handle =
          alone.2.1.sets.find? (crew who).handle := by
  have hRun :=
    run_like_alone hHandles who steps hHoused
      (hHoused.same_refl who)
  exact ⟨hRun.1, hRun.2.2.1, hRun.2.1.2⟩

/-
  Two workers count on a shared source, and one of them makes a
  mistake. Its answers do not show that the other one is there.
-/
theorem workers_do_not_interfere_pair :
    let crew : Crew Bool := fun who =>
      ⟨if who then 2 else 1, {}, ⟨.uniform 1 2 1, 0⟩⟩
    let set : SimulatedSet := ⟨[⟨0x80000032, 0⟩], false, .cpu 0⟩
    let source := Simulated.withDefaultEvents.putSet 1 set
    let shared : Shared Bool := ⟨source.putSet 2 set, fun _ => none⟩
    let step (who : Bool) (now : Int64) (job : Job) : Step Bool :=
      ⟨who, { clock := .reading 0 now }, job⟩
    let steps :=
      [step false 1 .start, step true 2 .start,
        step false 3 (.execute 10), step true 4 (.migrate 1),
        step true 5 (.execute 7), step false 6 (.addEvent 0),
        step true 7 (.observe .accumulate true),
        step false 8 (.observe .stop false)]
    let alone :=
      (crew false).runAlone (jobsOf false steps)
        (shared.source, shared.slots false)
    answersTo false (crew.run steps shared).1 =
        [.ok none, .ok none,
          .error (.backend (Simulated.unknownCode 0)),
          .ok (some 8)] ∧
      (crew.run steps shared).2.slots false = alone.2.2 ∧
        (crew.run steps shared).2.source.sets.find? 1 =
          some ⟨[⟨0x80000032, 20⟩], false, .cpu 0⟩ := by
  intro crew set source shared step steps alone
  have hHandles :
      Function.Injective fun who => (crew who).handle := by
    intro left right hSame
    cases left <;> cases right <;> simp [crew] at hSame ⊢
  have hHoused : crew.Housed shared := by
    intro who session hSession
    contradiction
  have hRun :=
    workers_do_not_interfere crew hHandles steps shared hHoused
      false
  have hAnswers :
      alone.1 =
        [.ok none, .ok none,
          .error (.backend (Simulated.unknownCode 0)),
          .ok (some 8)] := by
    decide +kernel
  have hSet :
      alone.2.1.sets.find? 1 =
        some ⟨[⟨0x80000032, 20⟩], false, .cpu 0⟩ := rfl
  exact ⟨hRun.1.trans hAnswers, hRun.2.1, hRun.2.2.trans hSet⟩

end Crew

end CoreTally
