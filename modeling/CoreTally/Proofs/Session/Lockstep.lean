import CoreTally.Proofs.Counter.Trace
import CoreTally.Proofs.Session.SimulatedCalls

/-
  A simulated source and the session that follows one of its
  event sets. The source keeps a running flag for each event
  set and the session keeps one of its own. The two agree after
  any run, as long as the event set of the session is started
  and stopped through the session alone. Everything else may
  be asked of the source at any time, and anything may fail.

  Key definitions include:
    * `Simulated.Step`
    * `Simulated.along`
    * `Simulated.Step.spares`
    * `Simulated.Numbered`
    * `Simulated.Locked`
    * `Simulated.Rests`
    * `Simulated.InStep`

  Key theorems include:
    * `Simulated.Operation.Carried.isRunning_eq`
    * `Simulated.Locked.after`
    * `Simulated.locked_goOn`
    * `Simulated.session_keeps_step`
-/

namespace CoreTally

namespace Simulated

open CoreTally.Session (Primitive Request)

------------------------------------------------------------
-- Steps
------------------------------------------------------------

/-
  One step of a program: an operation on the source itself, or
  a call on the slot of the session, with the units that the
  bindings have at that time.
-/
inductive Step where
| outside (operation : Operation)
| request
    (resolve : UnitBinding → Except Error UnitId)
    (call : Request)

/- The event set is started or stopped. -/
def Operation.toggles (handle : EventSet) : Operation → Bool
| .start set | .stop set => set == handle
| _ => false

/- An event set is created. -/
def Operation.isCreation : Operation → Bool
| .createEventSet => true
| _ => false

namespace Step

/- Source and slot after a step, which may have failed. -/
def after :
    Step → Simulated × Option Session →
      Simulated × Option Session
| outside operation, (s, slot) =>
    match operation.perform s with
    | .ok _ s => (s, slot)
    | .error _ s => (s, slot)
| request resolve call, reached =>
    match call.perform (source resolve) reached with
    | .ok _ reached => reached
    | .error _ reached => reached

/-
  The step neither starts nor stops the event set of the
  session, unless it does so through the session.
-/
def spares : Step → Simulated × Option Session → Bool
| outside operation, (_, slot) =>
    slot.all fun session => !operation.toggles session.handle
| request _ _, _ => true

/- The source creates an event set. -/
def creates : Step → Bool
| outside operation => operation.isCreation
| request _ _ => false

/- The session is stopped, and its final values are stored. -/
def stops : Step → Simulated × Option Session → Bool
| request resolve (.observe .stop site now permanent),
    reached =>
    match
      (Request.observe .stop site now permanent).perform
        (source resolve) reached with
    | .ok (some _) _ => true
    | _ => false
| _, _ => false

/- An event set is started through the session. -/
def starts : Step → Simulated × Option Session → Bool
| request resolve (.start handle), reached =>
    match
      (Request.start handle).perform (source resolve)
        reached with
    | .ok _ _ => true
    | .error _ _ => false
| _, _ => false

end Step

/-
  What a step does: it fails and changes nothing, or else the
  operation or the call is carried out.
-/
inductive Taken
    (s : Simulated)
    (slot : Option Session) :
    Step → Simulated × Option Session → Prop
| failed
    {step : Step}
    (hCreates : step.creates = false) :
    Taken s slot step (s, slot)
| outside
    {operation : Operation}
    {answer : Answer}
    {s₁ : Simulated}
    (hCarried : operation.Carried s answer s₁) :
    Taken s slot (.outside operation) (s₁, slot)
| request
    {resolve : UnitBinding → Except Error UnitId}
    {call : Request}
    {answer : Option Instant}
    {s₁ : Simulated}
    {slot₁ : Option Session}
    (hPerform :
      call.perform (source resolve) (s, slot) =
        .ok answer (s₁, slot₁)) :
    Taken s slot (.request resolve call) (s₁, slot₁)

theorem taken_after
    (step : Step)
    (s : Simulated)
    (slot : Option Session) :
    Taken s slot step (step.after (s, slot)) := by
  cases step with
  | outside operation =>
      rcases operation.perform_cases s with
        ⟨answer, s₁, hPerform, hCarried⟩ | ⟨e, hPerform, hSet⟩
      · simp only [Step.after, hPerform]
        exact .outside hCarried
      · have hCreates : operation.isCreation = false := by
          cases operation with
          | createEventSet => contradiction
          | _ => rfl
        simp only [Step.after, hPerform]
        exact .failed hCreates
  | request resolve call =>
      cases hPerform : call.perform (source resolve) (s, slot) with
      | ok answer reached =>
          simp only [Step.after, hPerform]
          exact .request hPerform
      | error e reached =>
          simp only [Step.after, hPerform,
            call.retreats_perform (transactional_source resolve)
              _ _ _ hPerform]
          exact .failed rfl

/- Take steps, one after another. -/
def goOn
    (steps : List Step)
    (reached : Simulated × Option Session) :
    Simulated × Option Session :=
  steps.foldl (fun reached step => step.after reached) reached

/- Something holds of every step when it is taken. -/
def along
    (holds : Step → Simulated × Option Session → Bool) :
    List Step → Simulated × Option Session → Bool
| [], _ => true
| step :: steps, reached =>
    holds step reached && along holds steps (step.after reached)

theorem goOn_append
    (front back : List Step)
    (reached : Simulated × Option Session) :
    goOn (front ++ back) reached =
      goOn back (goOn front reached) :=
  List.foldl_append

theorem along_append
    (holds : Step → Simulated × Option Session → Bool)
    (front back : List Step)
    (reached : Simulated × Option Session) :
    along holds (front ++ back) reached =
      (along holds front reached &&
        along holds back (goOn front reached)) := by
  induction front generalizing reached with
  | nil => rfl
  | cons step front ih =>
      rw [List.cons_append, along, ih, along, Bool.and_assoc]
      rfl

------------------------------------------------------------
-- Running Event Sets
------------------------------------------------------------

variable {s s₁ : Simulated}
variable {slot slot₁ : Option Session}
variable {operation : Operation}
variable {answer : Answer}

theorem isRunning_eq
    {handle : EventSet}
    {set : SimulatedSet}
    (hFind : s.sets.find? handle = some set) :
    s.isRunning handle = set.running := by
  rw [isRunning, hFind]

theorem isRunning_putSet
    (s : Simulated)
    (handle other : EventSet)
    (set : SimulatedSet) :
    (s.putSet handle set).isRunning other =
      if other = handle then
        set.running
      else
        s.isRunning other := by
  unfold isRunning
  rw [putSet, OrderedMap.find?_insert]
  by_cases hOwn : other = handle
  · rw [if_pos hOwn, if_pos hOwn]
  · rw [if_neg hOwn, if_neg hOwn]

theorem Operation.Alters.isCreation_eq
    {handle : EventSet}
    {set altered : SimulatedSet}
    (hAlters : Alters s handle set operation answer altered) :
    operation.isCreation = false := by
  cases hAlters <;> rfl

/-
  An event set is running as the operation leaves it, or as it
  was if the operation is about something else.
-/
theorem Operation.Carried.isRunning_eq
    (hCarried : operation.Carried s answer s₁)
    (handle : EventSet) :
    s₁.isRunning handle =
      (Done.switches handle ⟨operation, answer⟩).getD
        (s.isRunning handle) := by
  cases hCarried with
  | defined code name weight => rfl
  | created =>
      change (s.putSet s.nextSet .empty).isRunning handle = _
      rw [isRunning_putSet]
      by_cases hNew : s.nextSet = handle
      · simp [Done.switches, Done.creates, hNew,
          SimulatedSet.empty]
      · simp [Done.switches, Done.creates, Operation.set?, hNew,
          Ne.symm hNew]
  | @altered _ _ other set altered hFind hAlters =>
      rw [isRunning_putSet]
      by_cases hOwn : handle = other
      · subst hOwn
        rw [if_pos rfl, hAlters.running_eq,
          Simulated.isRunning_eq hFind]
      · have hSwitches :
            Done.switches handle ⟨operation, answer⟩ = none := by
          simp [Done.switches, hAlters.creates_eq,
            hAlters.set?_eq, Ne.symm hOwn]
        rw [if_neg hOwn, hSwitches, Option.getD_none]

theorem switches_eq_none
    {handle : EventSet}
    (hToggles : operation.toggles handle = false)
    (hCreates : Done.creates handle ⟨operation, answer⟩ = false) :
    Done.switches handle ⟨operation, answer⟩ = none := by
  unfold Done.switches
  rw [hCreates]
  cases operation <;>
    simp_all [Operation.toggles, Operation.set?]

------------------------------------------------------------
-- Handles
------------------------------------------------------------

/-
  After some event sets have been created: handles are given
  out in order, and only these are known.
-/
structure Numbered
    (s : Simulated)
    (created : Nat) : Prop where
  next : s.nextSet = Int32.ofNat (created + 1)
  given :
    ∀ handle set, s.sets.find? handle = some set →
      ∃ number, number < created ∧
        handle = Int32.ofNat (number + 1)

theorem numbered_empty : empty.Numbered 0 where
  next := rfl
  given := by
    intro handle set hFind
    contradiction

/- Numbers that are close to each other have their own handles. -/
theorem ofNat_ne_of_lt
    {number other : Nat}
    (hLess : number < other)
    (hClose : other < number + 2 ^ 32) :
    Int32.ofNat number ≠ Int32.ofNat other := by
  intro hSame
  have hBits := congrArg (BitVec.toNat ∘ Int32.toBitVec) hSame
  simp only [Function.comp_apply, Int32.toBitVec_ofNat',
    BitVec.toNat_ofNat] at hBits
  omega

/- A handle is new, until all of them have been given out. -/
theorem Numbered.find?_nextSet
    {created : Nat}
    (hNumbered : s.Numbered created)
    (hFew : created < 2 ^ 32) :
    s.sets.find? s.nextSet = none := by
  cases hFind : s.sets.find? s.nextSet with
  | none => rfl
  | some set =>
      rcases hNumbered.given _ _ hFind with
        ⟨number, hLess, hHandle⟩
      rw [hNumbered.next] at hHandle
      exact absurd hHandle.symm
        (ofNat_ne_of_lt (by omega) (by omega))

/- Event sets that were there are changed, or one is created. -/
theorem Numbered.of_carried
    {created : Nat}
    (hNumbered : s.Numbered created)
    (hCarried : operation.Carried s answer s₁) :
    s₁.Numbered
      (created + if operation.isCreation then 1 else 0) := by
  cases hCarried with
  | defined code name weight => exact ⟨hNumbered.1, hNumbered.2⟩
  | created =>
      constructor
      · change s.nextSet + 1 = Int32.ofNat (created + 1 + 1)
        rw [hNumbered.next, Int32.ofNat_add (created + 1) 1]
        rfl
      · intro handle set hFind
        change (s.sets.insert s.nextSet .empty).find? handle = _
          at hFind
        rw [OrderedMap.find?_insert] at hFind
        by_cases hNew : handle = s.nextSet
        · exact ⟨created, Nat.lt_succ_self created,
            hNew.trans hNumbered.next⟩
        · rw [if_neg hNew] at hFind
          rcases hNumbered.given _ _ hFind with
            ⟨number, hLess, hHandle⟩
          exact ⟨number, Nat.lt_succ_of_lt hLess, hHandle⟩
  | @altered _ _ other set altered hOther hAlters =>
      rw [hAlters.isCreation_eq]
      constructor
      · exact hNumbered.next
      · intro handle found hFind
        rw [putSet, OrderedMap.find?_insert] at hFind
        by_cases hOwn : handle = other
        · exact hNumbered.given handle set (hOwn ▸ hOther)
        · rw [if_neg hOwn] at hFind
          exact hNumbered.given _ _ hFind

------------------------------------------------------------
-- Lock Step
------------------------------------------------------------

/-
  The session has the running flag of its event set. With it go
  the facts about the source that keep it so.
-/
structure Locked
    (created : Nat)
    (reached : Simulated × Option Session) : Prop where
  numbered : reached.1.Numbered created
  eventful : reached.1.Eventful
  running :
    ∀ session, reached.2 = some session →
      session.running = reached.1.isRunning session.handle

theorem locked_empty : Locked 0 (empty, none) where
  numbered := numbered_empty
  eventful := by
    intro handle set hFind
    contradiction
  running := by
    intro session hSlot
    contradiction

/- What is done beside the session leaves its flag right. -/
theorem Locked.outside
    {created : Nat}
    (hLocked : Locked created (s, slot))
    (hFew :
      created + (if operation.isCreation then 1 else 0) ≤ 2 ^ 32)
    (hCarried : operation.Carried s answer s₁)
    (hSpares : Step.spares (.outside operation) (s, slot) = true) :
    Locked (created + if operation.isCreation then 1 else 0)
      (s₁, slot) where
  numbered := hLocked.numbered.of_carried hCarried
  eventful := hLocked.eventful.of_carried hCarried
  running := by
    intro session hSlot
    cases hSlot
    have hToggles : operation.toggles session.handle = false := by
      simpa [Step.spares] using hSpares
    rw [hLocked.running session rfl, hCarried.isRunning_eq]
    cases hCreates :
        Done.creates session.handle ⟨operation, answer⟩ with
    | false =>
        rw [switches_eq_none hToggles hCreates, Option.getD_none]
    | true =>
        -- The handle is new, so nothing was running under it.
        cases hCarried with
        | defined => contradiction
        | altered hFind hAlters =>
            rw [hAlters.creates_eq] at hCreates
            contradiction
        | created =>
            have hNew : s.nextSet = session.handle := by
              simpa [Done.creates] using hCreates
            have hFind := hLocked.numbered.find?_nextSet hFew
            rw [hNew] at hFind
            simp [Done.switches, hCreates, isRunning, hFind]

/- What is done through the session sets both flags alike. -/
theorem Locked.followed
    {created : Nat}
    (hLocked : Locked created (s, slot))
    {request : Request}
    (hFollowed : Followed s request slot s₁ slot₁) :
    Locked created (s₁, slot₁) := by
  cases hFollowed with
  | vacant request => exact hLocked
  | started handle slot ledger hCarried =>
      refine ⟨hLocked.numbered.of_carried hCarried,
        hLocked.eventful.of_carried hCarried, ?_⟩
      rintro session ⟨⟩
      rw [hCarried.isRunning_eq]
      simp [Done.switches, Done.creates, Operation.set?]
  | reset session ledger hCarried =>
      refine ⟨hLocked.numbered.of_carried hCarried,
        hLocked.eventful.of_carried hCarried, ?_⟩
      rintro session₁ ⟨⟩
      rw [hCarried.isRunning_eq]
      simpa [Done.switches, Done.creates, Operation.set?] using
        hLocked.running session rfl
  | observed primitive site now permanent session ledger values
      hCarried =>
      have hNumbered := hLocked.numbered.of_carried hCarried
      refine ⟨?_, hLocked.eventful.of_carried hCarried, ?_⟩
      · cases primitive <;> exact hNumbered
      · rintro session₁ ⟨⟩
        have hRunning := hLocked.running session rfl
        rw [hCarried.isRunning_eq]
        cases primitive with
        | read | accumulate =>
            simpa [Done.switches, Done.creates, Operation.set?,
              Primitive.operation, Session.after] using hRunning
        | stop =>
            simp [Done.switches, Done.creates, Operation.set?,
              Primitive.operation, Session.after]
  | recorded site now values permanent session ledger =>
      refine ⟨hLocked.numbered, hLocked.eventful, ?_⟩
      rintro session₁ ⟨⟩
      exact hLocked.running session rfl

/- A step keeps source and session in lock step. -/
theorem Locked.after
    {created : Nat}
    {reached : Simulated × Option Session}
    (hLocked : Locked created reached)
    {step : Step}
    (hFew :
      created + (if step.creates then 1 else 0) ≤ 2 ^ 32)
    (hSpares : step.spares reached = true) :
    Locked (created + if step.creates then 1 else 0)
      (step.after reached) := by
  rcases reached with ⟨s, slot⟩
  have hTaken := taken_after step s slot
  generalize step.after (s, slot) = next at hTaken ⊢
  cases hTaken with
  | failed hCreates => simpa [hCreates] using hLocked
  | outside hCarried =>
      exact hLocked.outside hFew hCarried hSpares
  | request hPerform =>
      exact hLocked.followed (followed_of_perform hPerform)

/- Source and session are in lock step after any run. -/
theorem locked_goOn
    (steps : List Step)
    (hOnly : along Step.spares steps (empty, none) = true)
    (hFew : steps.countP Step.creates ≤ 2 ^ 32) :
    Locked (steps.countP Step.creates)
      (goOn steps (empty, none)) := by
  induction steps using List.reverseRecOn with
  | nil => exact locked_empty
  | append_singleton steps step ih =>
      rw [along_append, Bool.and_eq_true] at hOnly
      rw [List.countP_append, List.countP_singleton] at hFew ⊢
      rw [goOn_append]
      refine (ih hOnly.1 (by omega)).after hFew ?_
      simpa [along] using hOnly.2

------------------------------------------------------------
-- Stopped Sessions
------------------------------------------------------------

/- The slot holds a session that is not running. -/
def Halted (slot : Option Session) : Prop :=
  ∃ session, slot = some session ∧ session.running = false

/- Only a start makes a session run. -/
theorem Followed.halted
    {request : Request}
    (hFollowed : Followed s request slot s₁ slot₁)
    (hStart : ∀ handle, request ≠ .start handle)
    (hHalted : Halted slot) :
    Halted slot₁ := by
  rcases hHalted with ⟨session, rfl, hStopped⟩
  cases hFollowed with
  | started handle => exact absurd rfl (hStart handle)
  | reset => exact ⟨_, rfl, hStopped⟩
  | recorded => exact ⟨_, rfl, hStopped⟩
  | observed primitive =>
      cases primitive with
      | read | accumulate => exact ⟨_, rfl, hStopped⟩
      | stop => exact ⟨_, rfl, rfl⟩

theorem Halted.after
    {reached : Simulated × Option Session}
    (hHalted : Halted reached.2)
    {step : Step}
    (hStarts : step.starts reached = false) :
    Halted (step.after reached).2 := by
  rcases reached with ⟨s, slot⟩
  have hTaken := taken_after step s slot
  generalize step.after (s, slot) = next at hTaken ⊢
  cases hTaken with
  | failed => exact hHalted
  | outside => exact hHalted
  | request hPerform =>
      refine (followed_of_perform hPerform).halted ?_ hHalted
      rintro handle rfl
      simp [Step.starts, hPerform] at hStarts

/- A session stays stopped while no start succeeds. -/
theorem Halted.goOn
    {reached : Simulated × Option Session}
    (hHalted : Halted reached.2)
    {steps : List Step}
    (hStarts :
      along (fun step reached => !step.starts reached) steps
        reached = true) :
    Halted (Simulated.goOn steps reached).2 := by
  induction steps generalizing reached with
  | nil => exact hHalted
  | cons step steps ih =>
      rw [along, Bool.and_eq_true, Bool.not_eq_true'] at hStarts
      exact ih (hHalted.after hStarts.1) hStarts.2

/- A stop that succeeds leaves a session that is not running. -/
theorem halted_of_stops
    {step : Step}
    {reached : Simulated × Option Session}
    (hStops : step.stops reached = true) :
    Halted (step.after reached).2 := by
  rcases reached with ⟨s, slot⟩
  unfold Step.stops at hStops
  split at hStops
  · rename_i resolve site now permanent
    split at hStops
    · rename_i instant next hPerform
      rcases next with ⟨s₁, slot₁⟩
      rcases Session.inSlot_eq_ok hPerform with
        ⟨-, -, -, hNone⟩ | ⟨session, _, _, rfl, rfl, hDone, -⟩
      · contradiction
      · simp only [Step.after, hPerform]
        cases followed_of_observe hDone
        exact ⟨_, rfl, rfl⟩
    · contradiction
  · contradiction

/-
  A stop of the session has succeeded, and no start through the
  session since.
-/
def Rests (steps : List Step) : Prop :=
  ∃ before stop since,
    steps = before ++ stop :: since ∧
      stop.stops (goOn before (empty, none)) = true ∧
        along (fun step reached => !step.starts reached) since
            (goOn (before ++ [stop]) (empty, none)) =
          true

theorem Rests.halted
    {steps : List Step}
    (hRests : Rests steps) :
    Halted (goOn steps (empty, none)).2 := by
  rcases hRests with ⟨before, stop, since, rfl, hStops, hSince⟩
  rw [List.append_cons, goOn_append]
  refine Halted.goOn ?_ hSince
  rw [goOn_append]
  exact halted_of_stops hStops

------------------------------------------------------------
-- Outcomes
------------------------------------------------------------

/-
  The flags agree, and the session can be observed with any
  primitive as long as its event set is ready.
-/
structure InStep
    (s : Simulated)
    (session : Session) : Prop where
  running : session.running = s.isRunning session.handle
  observed :
    ∀ resolve site now primitive permanent,
      (∃ instant after,
          Session.observe (source resolve) site now primitive
              permanent (s, session) =
            .ok instant after) ↔
        ∃ set unit,
          s.Ready session.handle resolve site set unit

theorem Locked.inStep
    {created : Nat}
    {session : Session}
    (hLocked : Locked created (s, some session)) :
    s.InStep session where
  running := hLocked.running session rfl
  observed := observe_ok_iff hLocked.eventful session

/- A session that has stopped can not be observed. -/
theorem Locked.observe_of_halted
    {created : Nat}
    {reached : Simulated × Option Session}
    (hLocked : Locked created reached)
    (hHalted : Halted reached.2)
    (resolve : UnitBinding → Except Error UnitId)
    (primitive : Primitive)
    (site : Site)
    (now : Instant)
    (permanent : Bool) :
    ∃ e,
      (Request.observe primitive site now permanent).perform
          (source resolve) reached =
        .error e reached := by
  rcases reached with ⟨s, slot⟩
  cases hPerform :
      (Request.observe primitive site now permanent).perform
        (source resolve) (s, slot) with
  | error e left =>
      rw [Request.retreats_perform (transactional_source resolve)
        _ _ _ _ hPerform]
      exact ⟨e, rfl⟩
  | ok answer next =>
      rcases next with ⟨s₁, slot₁⟩
      rcases hHalted with ⟨session, hSlot, hStopped⟩
      rcases Session.inSlot_eq_ok hPerform with
        ⟨rfl, -⟩ | ⟨_, _, instant, rfl, -, hDone, -⟩
      · contradiction
      · cases hSlot
        have hInStep := hLocked.inStep
        rcases (hInStep.observed resolve site now primitive
            permanent).mp ⟨instant, _, hDone⟩ with
          ⟨set, unit, hReady⟩
        have hRunning := hInStep.running
        rw [isRunning_eq hReady.found, hReady.running, hStopped]
          at hRunning
        contradiction

/- What is running is not started again. -/
theorem start_of_running
    {handle : EventSet}
    (hRunning : s.isRunning handle = true)
    (resolve : UnitBinding → Except Error UnitId)
    (slot : Option Session) :
    (Request.start handle).perform (source resolve) (s, slot) =
      .error (.backend (isRunningError handle)) (s, slot) := by
  apply Action.bind_error
  unfold isRunning at hRunning
  cases hFind : s.sets.find? handle with
  | none => simp [hFind] at hRunning
  | some set =>
      simp only [hFind] at hRunning
      simp [Session.start, source, CounterSource.resolvedBy, start,
        onSet, hFind, hRunning]

/-
  A program starts with a source that knows no events and with
  an empty slot. It goes on in any way, only that it starts and
  stops the event set of the session through the session, and
  creates no more event sets than there are handles. Wherever it
  gets, source and session are in step. A session that was
  stopped can not be observed before it is started again, and
  what is running can not be started. Such calls leave source
  and slot as they were.
-/
theorem session_keeps_step
    (steps : List Step)
    (hOnly : along Step.spares steps (empty, none) = true)
    (hFew : steps.countP Step.creates ≤ 2 ^ 32) :
    let reached := goOn steps (empty, none)
    (∀ session, reached.2 = some session →
        reached.1.InStep session) ∧
      (Rests steps →
        ∀ resolve primitive site now permanent,
          ∃ e,
            (Request.observe primitive site now
                permanent).perform (source resolve) reached =
              .error e reached) ∧
      ∀ resolve handle, reached.1.isRunning handle = true →
        ∃ e : BackendError,
          (Request.start handle).perform (source resolve)
              reached =
            .error (.backend e) reached ∧
          e.status = Status.running := by
  intro reached
  have hLocked := locked_goOn steps hOnly hFew
  refine ⟨?_, ?_, ?_⟩
  · intro session hSlot
    apply Locked.inStep
    rw [← hSlot]
    exact hLocked
  · intro hRests resolve primitive site now permanent
    exact hLocked.observe_of_halted hRests.halted resolve primitive
      site now permanent
  · intro resolve handle hRunning
    exact ⟨_, start_of_running hRunning resolve reached.2, rfl⟩

/-
  A session is stopped, work goes on beside it, and it is moved
  to another event set. The first one stays stopped.
-/
theorem session_keeps_step_rebound :
    let resolve := Resolver.resolve {} {}
    let site : Site := ⟨.uniform 1 2 1, 0⟩
    let steps : List Step :=
      [.outside (.defineEvent 7 "SEVEN" 3),
        .outside .createEventSet,
        .outside (.addEvent 1 7),
        .outside .createEventSet,
        .outside (.addEvent 2 7),
        .request resolve (.start 1),
        .outside (.execute 1 10),
        .outside (.stop 2),
        .request resolve (.observe .stop site 5 true),
        .outside (.reset 1),
        .request resolve (.observe .read site 6 true)]
    let reached := goOn steps (empty, none)
    along Step.spares steps (empty, none) = true ∧
      Rests steps ∧
      (∃ e,
        (Request.observe .read site 7 false).perform
            (source resolve) reached =
          .error e reached) ∧
      let rebound := steps ++ [.request resolve (.start 2)]
      ∃ session,
        (goOn rebound (empty, none)).2 = some session ∧
          session.handle = 2 ∧
          (goOn rebound (empty, none)).1.isRunning 2 = true ∧
          (goOn rebound (empty, none)).1.isRunning 1 = false := by
  intro resolve site steps reached
  have hOnly : along Step.spares steps (empty, none) = true := by
    decide +kernel
  have hRests : Rests steps :=
    ⟨steps.take 8, .request resolve (.observe .stop site 5 true),
      steps.drop 9, rfl, by decide +kernel, by decide +kernel⟩
  refine ⟨hOnly, hRests, ?_, ?_⟩
  · exact (session_keeps_step steps hOnly (by decide)).2.1 hRests
      resolve .read site 7 false
  · intro rebound
    have hRebound :
        along Step.spares rebound (empty, none) = true := by
      decide +kernel
    have hStep :=
      (session_keeps_step rebound hRebound (by decide)).1
    have hSome :
        (goOn rebound (empty, none)).2.isSome = true := by
      decide +kernel
    rcases Option.isSome_iff_exists.mp hSome with
      ⟨session, hSlot⟩
    have hHandle : session.handle = 2 ∧ session.running = true := by
      have hFields :
          (goOn rebound (empty, none)).2.all
              (fun session =>
                session.handle == 2 && session.running) =
            true := by
        decide +kernel
      simpa [hSlot] using hFields
    refine ⟨session, hSlot, hHandle.1, ?_, by decide +kernel⟩
    rw [← hHandle.1, ← (hStep session hSlot).running]
    exact hHandle.2

end Simulated

end CoreTally
