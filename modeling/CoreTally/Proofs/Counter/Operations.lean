import CoreTally.Proofs.Session.Atomicity

/-
  The operations of a simulated source as data, in the order in
  which they are carried out. An operation that succeeds makes
  an event known, creates an event set or changes one that is
  there, and an operation that fails does nothing.

  Key definitions include:
    * `Simulated.Operation`
    * `Simulated.Operation.perform`
    * `Simulated.Operation.Alters`
    * `Simulated.Operation.Carried`

  Key theorems include:
    * `Simulated.Operation.carried_of_perform`
    * `Simulated.Operation.retreats_perform`
-/

namespace CoreTally

open CoreTally.Action (Idle Retreats)

theorem Action.Idle.bind_retreats
    {ε σ α β : Type}
    {action : Action ε σ α}
    (hIdle : Idle action)
    {next : α → Action ε σ β}
    (hNext : ∀ answer, Retreats (next answer)) :
    Retreats (action >>= next) := by
  intro s e s₁ hFailed
  rcases hIdle s with ⟨answer, hSame⟩ | ⟨cause, hSame⟩
  · rw [bind_ok hSame] at hFailed
    exact hNext answer s e s₁ hFailed
  · rw [bind_error hSame] at hFailed
    injection hFailed with _ hState
    exact hState.symm

namespace Simulated

------------------------------------------------------------
-- Changes of One Event Set
------------------------------------------------------------

variable {s s₁ : Simulated}
variable {handle : EventSet}

theorem onSet_eq_ok
    {α : Type}
    {operate :
      SimulatedSet → Except BackendError (α × SimulatedSet)}
    {value : α}
    (hOk : onSet handle operate s = .ok value s₁) :
    ∃ set altered,
      s.sets.find? handle = some set ∧
        operate set = .ok (value, altered) ∧
          s₁ = s.putSet handle altered := by
  cases hFind : s.sets.find? handle with
  | none => simp [onSet, hFind] at hOk
  | some set =>
      cases hOperate : operate set with
      | error e => simp [onSet, hFind, hOperate] at hOk
      | ok result =>
          simp only [onSet, hFind, hOperate] at hOk
          injection hOk with hValue hState
          subst hValue
          exact ⟨set, result.2, rfl, hOperate, hState.symm⟩

theorem addRawEvent_eq_ok
    {code : EventCode}
    (hOk : addRawEvent handle code s = .ok () s₁) :
    ∃ set,
      s.sets.find? handle = some set ∧ set.running = false ∧
        s₁ = s.putSet handle (set.push code) := by
  rcases onSet_eq_ok hOk with ⟨set, altered, hFind, hPush, rfl⟩
  cases hRunning : set.running with
  | true => simp [hRunning] at hPush
  | false =>
      simp only [hRunning, Bool.false_eq_true, if_false] at hPush
      cases hPush
      exact ⟨set, hFind, hRunning, rfl⟩

theorem addEvent_eq_ok
    {code : EventCode}
    (hOk : addEvent handle code s = .ok () s₁) :
    (s.event? code).isSome = true ∧
      addRawEvent handle code s = .ok () s₁ := by
  unfold addEvent at hOk
  cases hEvent : s.event? code with
  | none => simp [hEvent] at hOk
  | some event => simpa [hEvent] using hOk

theorem addNamedEvent_eq_ok
    {name : String}
    {code : EventCode}
    (hOk : addNamedEvent handle name s = .ok code s₁) :
    ∃ event,
      s.named? name = some event ∧ code = event.code ∧
        addRawEvent handle event.code s = .ok () s₁ := by
  rcases Action.bind_eq_ok hOk with ⟨known, s₂, hCode, hRest⟩
  unfold eventCode at hCode
  cases hNamed : s.named? name with
  | none => simp [hNamed] at hCode
  | some event =>
      simp only [hNamed] at hCode
      cases hCode
      rcases Action.bind_pure_eq_ok hRest with ⟨_, hAdd, hSame⟩
      exact ⟨event, rfl, hSame, (addEvent_eq_ok hAdd).2⟩

theorem take_eq_ok
    {change : SimulatedSet → SimulatedSet}
    {values : List Count}
    (hOk : take handle change s = .ok values s₁) :
    ∃ set,
      s.sets.find? handle = some set ∧ set.running = true ∧
        values = set.counts ∧
          s₁ = s.putSet handle (change set) := by
  rcases onSet_eq_ok hOk with ⟨set, altered, hFind, hTake, rfl⟩
  cases hRunning : set.running with
  | false => simp [hRunning] at hTake
  | true =>
      simp only [hRunning, if_true] at hTake
      cases hTake
      exact ⟨set, hFind, hRunning, rfl, rfl⟩

/- Questions about an event set that exists are answered. -/
theorem askSet_eq
    {α : Type}
    {set : SimulatedSet}
    (hFind : s.sets.find? handle = some set)
    (ask : SimulatedSet → α) :
    askSet handle ask s = .ok (ask set) s := by
  simp only [askSet, hFind]

/- No values are taken from an event set that has stopped. -/
theorem take_of_stopped
    {set : SimulatedSet}
    (hFind : s.sets.find? handle = some set)
    (hStopped : set.running = false)
    (change : SimulatedSet → SimulatedSet) :
    take handle change s = .error (notRunning handle) s := by
  simp [take, onSet, hFind, hStopped]

theorem setBinding_eq_ok
    {binding : UnitBinding}
    (hOk : setBinding handle binding s = .ok () s₁) :
    ∃ set,
      s.sets.find? handle = some set ∧
        s₁ = s.putSet handle { set with binding } := by
  rcases onSet_eq_ok hOk with ⟨set, altered, hFind, hBind, rfl⟩
  cases hBind
  exact ⟨set, hFind, rfl⟩

theorem execute_eq_ok
    {work : UInt64}
    (hOk : execute handle work s = .ok () s₁) :
    ∃ set count,
      s.sets.find? handle = some set ∧
        Count.ofWork? work = some count ∧
          s₁ = s.putSet handle (set.worked s.weight count) := by
  unfold execute at hOk
  cases hWork : Count.ofWork? work with
  | none => simp [hWork] at hOk
  | some count =>
      simp only [hWork] at hOk
      rcases onSet_eq_ok hOk with ⟨set, altered, hFind, hSet, rfl⟩
      cases hSet
      exact ⟨set, count, hFind, rfl, rfl⟩

theorem start_eq_ok
    (hOk : start handle s = .ok () s₁) :
    ∃ set,
      s.sets.find? handle = some set ∧ set.running = false ∧
        set.counters ≠ [] ∧
          s₁ = s.putSet handle { set.zeroed with running := true } := by
  rcases onSet_eq_ok hOk with ⟨set, altered, hFind, -, -⟩
  exact ⟨set, hFind, start_cases hFind hOk⟩

theorem reset_eq_ok
    (hOk : reset handle s = .ok () s₁) :
    ∃ set,
      s.sets.find? handle = some set ∧
        s₁ = s.putSet handle set.zeroed := by
  rcases onSet_eq_ok hOk with ⟨set, altered, hFind, hZero, rfl⟩
  cases hZero
  exact ⟨set, hFind, rfl⟩

------------------------------------------------------------
-- Failures
------------------------------------------------------------

theorem retreats_addEvent
    (handle : EventSet)
    (code : EventCode) :
    Retreats (addEvent handle code) := by
  intro s e s₁ hFailed
  unfold addEvent at hFailed
  cases hEvent : s.event? code with
  | none =>
      simp only [hEvent] at hFailed
      injection hFailed with _ hState
      exact hState.symm
  | some event =>
      simp only [hEvent] at hFailed
      exact retreats_onSet handle _ s e s₁ hFailed

theorem retreats_setBinding
    (handle : EventSet)
    (binding : UnitBinding) :
    Retreats (setBinding handle binding) :=
  retreats_onSet handle _

theorem idle_eventCode
    (name : String) :
    Idle (eventCode name) := by
  intro s
  cases hNamed : s.named? name with
  | none =>
      refine .inr ⟨unknownName name, ?_⟩
      simp only [eventCode, hNamed]
  | some event =>
      refine .inl ⟨event.code, ?_⟩
      simp only [eventCode, hNamed]

theorem retreats_addNamedEvent
    (handle : EventSet)
    (name : String) :
    Retreats (addNamedEvent handle name) :=
  (idle_eventCode name).bind_retreats fun code =>
    (retreats_addEvent handle code).bind_pure _

theorem retreats_execute
    (handle : EventSet)
    (work : UInt64) :
    Retreats (execute handle work) := by
  intro s e s₁ hFailed
  unfold execute at hFailed
  cases hWork : Count.ofWork? work with
  | none =>
      simp only [hWork] at hFailed
      injection hFailed with _ hState
      exact hState.symm
  | some count =>
      simp only [hWork] at hFailed
      exact retreats_onSet handle _ s e s₁ hFailed

------------------------------------------------------------
-- Operations
------------------------------------------------------------

/- What can be asked of a source that may change it. -/
inductive Operation where
| defineEvent (code : EventCode) (name : String) (weight : Count)
| createEventSet
| addEvent (set : EventSet) (code : EventCode)
| addNamedEvent (set : EventSet) (name : String)
| addRawEvent (set : EventSet) (code : EventCode)
| setBinding (set : EventSet) (binding : UnitBinding)
| migrate (set : EventSet) (unit : UnitId)
| execute (set : EventSet) (work : UInt64)
| start (set : EventSet)
| read (set : EventSet)
| accumulate (set : EventSet)
| stop (set : EventSet)
| reset (set : EventSet)
deriving DecidableEq, Repr

/- What is answered when nothing fails. -/
inductive Answer where
| done
| created (set : EventSet)
| code (code : EventCode)
| counts (values : List Count)
deriving DecidableEq, Repr

namespace Operation

/- Carry out an operation. -/
def perform : Operation → Action BackendError Simulated Answer
| defineEvent code name weight => do
    modify fun s => s.defineEvent code name weight
    return .done
| createEventSet => do
    let set ← modifyGet fun s =>
      (s.createEventSet.2, s.createEventSet.1)
    return .created set
| addEvent set code => do
    Simulated.addEvent set code
    return .done
| addNamedEvent set name => do
    let code ← Simulated.addNamedEvent set name
    return .code code
| addRawEvent set code => do
    Simulated.addRawEvent set code
    return .done
| setBinding set binding => do
    Simulated.setBinding set binding
    return .done
| migrate set unit => do
    Simulated.migrate set unit
    return .done
| execute set work => do
    Simulated.execute set work
    return .done
| start set => do
    Simulated.start set
    return .done
| read set => do
    let values ← Simulated.read set
    return .counts values
| accumulate set => do
    let values ← Simulated.accumulate set
    return .counts values
| stop set => do
    let values ← Simulated.stop set
    return .counts values
| reset set => do
    Simulated.reset set
    return .done

------------------------------------------------------------
-- Success
------------------------------------------------------------

/-
  How an operation that succeeds changes the event set that it
  names, with its answer. Events are added only while the event
  set is stopped, and values are taken only while it runs.
-/
inductive Alters
    (s : Simulated)
    (handle : EventSet)
    (set : SimulatedSet) :
    Operation → Answer → SimulatedSet → Prop
| addEvent
    (code : EventCode)
    (hKnown : (s.event? code).isSome = true)
    (hStopped : set.running = false) :
    Alters s handle set (.addEvent handle code) .done
      (set.push code)
| addNamedEvent
    (name : String)
    (event : CatalogEvent)
    (hNamed : s.named? name = some event)
    (hStopped : set.running = false) :
    Alters s handle set (.addNamedEvent handle name)
      (.code event.code) (set.push event.code)
| addRawEvent
    (code : EventCode)
    (hStopped : set.running = false) :
    Alters s handle set (.addRawEvent handle code) .done
      (set.push code)
| setBinding
    (binding : UnitBinding) :
    Alters s handle set (.setBinding handle binding) .done
      { set with binding }
| migrate
    (unit : UnitId) :
    Alters s handle set (.migrate handle unit) .done
      { set with binding := .cpu unit }
| execute
    (work : UInt64)
    (count : Count)
    (hWork : Count.ofWork? work = some count) :
    Alters s handle set (.execute handle work) .done
      (set.worked s.weight count)
| start
    (hStopped : set.running = false)
    (hSome : set.counters ≠ []) :
    Alters s handle set (.start handle) .done
      { set.zeroed with running := true }
| read
    (hRunning : set.running = true) :
    Alters s handle set (.read handle) (.counts set.counts) set
| accumulate
    (hRunning : set.running = true) :
    Alters s handle set (.accumulate handle) (.counts set.counts)
      set.zeroed
| stop
    (hRunning : set.running = true) :
    Alters s handle set (.stop handle) (.counts set.counts)
      { set with running := false }
| reset :
    Alters s handle set (.reset handle) .done set.zeroed

/- What an operation that succeeds does, with its answer. -/
inductive Carried
    (s : Simulated) :
    Operation → Answer → Simulated → Prop
| defined
    (code : EventCode)
    (name : String)
    (weight : Count) :
    Carried s (.defineEvent code name weight) .done
      (s.defineEvent code name weight)
| created :
    Carried s .createEventSet (.created s.nextSet)
      s.createEventSet.1
| altered
    {operation : Operation}
    {answer : Answer}
    {handle : EventSet}
    {set altered : SimulatedSet}
    (hFind : s.sets.find? handle = some set)
    (hAlters : Alters s handle set operation answer altered) :
    Carried s operation answer (s.putSet handle altered)

variable {answer : Answer}

/- Whatever succeeds is carried out in one of these ways. -/
theorem carried_of_perform
    (operation : Operation)
    (hOk : operation.perform s = .ok answer s₁) :
    Carried s operation answer s₁ := by
  cases operation with
  | defineEvent code name weight =>
      cases hOk
      exact .defined code name weight
  | createEventSet =>
      cases hOk
      exact .created
  | addEvent set code =>
      rcases Action.bind_pure_eq_ok hOk with ⟨_, hAdd, rfl⟩
      rcases addEvent_eq_ok hAdd with ⟨hKnown, hRaw⟩
      rcases addRawEvent_eq_ok hRaw with
        ⟨_, hFind, hStopped, rfl⟩
      exact .altered hFind (.addEvent code hKnown hStopped)
  | addNamedEvent set name =>
      rcases Action.bind_pure_eq_ok hOk with ⟨_, hAdd, rfl⟩
      rcases addNamedEvent_eq_ok hAdd with
        ⟨event, hNamed, rfl, hRaw⟩
      rcases addRawEvent_eq_ok hRaw with
        ⟨_, hFind, hStopped, rfl⟩
      exact .altered hFind
        (.addNamedEvent name event hNamed hStopped)
  | addRawEvent set code =>
      rcases Action.bind_pure_eq_ok hOk with ⟨_, hRaw, rfl⟩
      rcases addRawEvent_eq_ok hRaw with
        ⟨_, hFind, hStopped, rfl⟩
      exact .altered hFind (.addRawEvent code hStopped)
  | setBinding set binding =>
      rcases Action.bind_pure_eq_ok hOk with ⟨_, hBind, rfl⟩
      rcases setBinding_eq_ok hBind with ⟨_, hFind, rfl⟩
      exact .altered hFind (.setBinding binding)
  | migrate set unit =>
      rcases Action.bind_pure_eq_ok hOk with ⟨_, hMove, rfl⟩
      rcases setBinding_eq_ok hMove with ⟨_, hFind, rfl⟩
      exact .altered hFind (.migrate unit)
  | execute set work =>
      rcases Action.bind_pure_eq_ok hOk with ⟨_, hWork, rfl⟩
      rcases execute_eq_ok hWork with
        ⟨_, count, hFind, hCount, rfl⟩
      exact .altered hFind (.execute work count hCount)
  | start set =>
      rcases Action.bind_pure_eq_ok hOk with ⟨_, hStart, rfl⟩
      rcases start_eq_ok hStart with
        ⟨_, hFind, hStopped, hSome, rfl⟩
      exact .altered hFind (.start hStopped hSome)
  | read set =>
      rcases Action.bind_pure_eq_ok hOk with ⟨_, hTake, rfl⟩
      rcases take_eq_ok hTake with ⟨_, hFind, hRunning, rfl, rfl⟩
      exact .altered hFind (.read hRunning)
  | accumulate set =>
      rcases Action.bind_pure_eq_ok hOk with ⟨_, hTake, rfl⟩
      rcases take_eq_ok hTake with ⟨_, hFind, hRunning, rfl, rfl⟩
      exact .altered hFind (.accumulate hRunning)
  | stop set =>
      rcases Action.bind_pure_eq_ok hOk with ⟨_, hTake, rfl⟩
      rcases take_eq_ok hTake with ⟨_, hFind, hRunning, rfl, rfl⟩
      exact .altered hFind (.stop hRunning)
  | reset set =>
      rcases Action.bind_pure_eq_ok hOk with ⟨_, hReset, rfl⟩
      rcases reset_eq_ok hReset with ⟨_, hFind, rfl⟩
      exact .altered hFind .reset

/- An operation that fails leaves everything as it was. -/
theorem retreats_perform
    (operation : Operation) :
    Retreats operation.perform := by
  cases operation with
  | defineEvent code name weight =>
      intro s e s₁ hFailed
      contradiction
  | createEventSet =>
      intro s e s₁ hFailed
      contradiction
  | addEvent set code =>
      exact (retreats_addEvent set code).bind_pure _
  | addNamedEvent set name =>
      exact (retreats_addNamedEvent set name).bind_pure _
  | addRawEvent set code =>
      exact (retreats_onSet set _).bind_pure _
  | setBinding set binding =>
      exact (retreats_setBinding set binding).bind_pure _
  | migrate set unit =>
      exact (retreats_setBinding set (.cpu unit)).bind_pure _
  | execute set work =>
      exact (retreats_execute set work).bind_pure _
  | start set => exact (retreats_onSet set _).bind_pure _
  | read set => exact (retreats_onSet set _).bind_pure _
  | accumulate set => exact (retreats_onSet set _).bind_pure _
  | stop set => exact (retreats_onSet set _).bind_pure _
  | reset set => exact (retreats_onSet set _).bind_pure _

end Operation

end Simulated

end CoreTally
