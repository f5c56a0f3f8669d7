import CoreTally.Proofs.Counter.Operations
import CoreTally.Proofs.Session.Visits

/-
  The calls on the slot of a session, made on a simulated
  source. A call that succeeds carries out at most one operation
  on the source, on the event set of the session, and the
  running flag of the session is set by starts and stops only.

  Values can be taken as long as the event set is ready: it is
  running, its events are known, and it reports from a thread.

  Key definitions include:
    * `Simulated.Followed`
    * `Simulated.Ready`
    * `Simulated.Eventful`

  Key theorems include:
    * `Simulated.followed_of_perform`
    * `Simulated.Eventful.of_carried`
    * `Simulated.observe_ok_iff`
-/

namespace CoreTally

------------------------------------------------------------
-- Calls That Succeed
------------------------------------------------------------

namespace Session

variable {σ : Type}
variable {source : CounterSource σ}
variable {s s₁ : σ}

/- Values are stored after the primitive itself has succeeded. -/
theorem Conduct.call_eq_ok
    (hSource : source.Transactional)
    {site : Site}
    {primitive : Primitive}
    {handle : EventSet}
    {calls : List CounterSource.Call}
    {observed : Location × List Reading}
    (hConduct :
      Conduct source site primitive handle s calls
        (.ok observed) s₁) :
    ∃ values, primitive.call source handle s = .ok values s₁ := by
  cases hConduct with
  | observed hNames hUnit hCall hCount =>
      rw [hUnit.eq_of_transactional hSource,
        hNames.eq_of_transactional hSource] at hCall
      exact ⟨_, hCall⟩

/- The operation of a source that a primitive carries out. -/
def Primitive.operation :
    Primitive → EventSet → Simulated.Operation
| read => .read
| accumulate => .accumulate
| stop => .stop

end Session

namespace Simulated

open CoreTally.Session (Primitive Request)

/-
  What a call that succeeds does to a source and to the slot.
  Only the readings of the session are left open.
-/
inductive Followed
    (s : Simulated) :
    Request → Option Session →
      Simulated → Option Session → Prop
| vacant
    (request : Request) :
    Followed s request none s none
| started
    (handle : EventSet)
    (slot : Option Session)
    (ledger : Ledger)
    {s₁ : Simulated}
    (hCarried : Operation.Carried s (.start handle) .done s₁) :
    Followed s (.start handle) slot s₁
      (some ⟨handle, true, ledger⟩)
| reset
    (session : Session)
    (ledger : Ledger)
    {s₁ : Simulated}
    (hCarried :
      Operation.Carried s (.reset session.handle) .done s₁) :
    Followed s .reset (some session) s₁
      (some { session with ledger })
| observed
    (primitive : Primitive)
    (site : Site)
    (now : Instant)
    (permanent : Bool)
    (session : Session)
    (ledger : Ledger)
    (values : List Count)
    {s₁ : Simulated}
    (hCarried :
      Operation.Carried s (primitive.operation session.handle)
        (.counts values) s₁) :
    Followed s (.observe primitive site now permanent)
      (some session) s₁
      (some { session.after primitive with ledger })
| recorded
    (site : Site)
    (now : Instant)
    (values : List Count)
    (permanent : Bool)
    (session : Session)
    (ledger : Ledger) :
    Followed s (.record site now values permanent)
      (some session) s (some { session with ledger })

variable {resolve : UnitBinding → Except Error UnitId}
variable {s s₁ : Simulated}
variable {session session₁ : Session}
variable {slot slot₁ : Option Session}
variable {site : Site}
variable {now : Instant}
variable {permanent : Bool}

theorem carried_of_call
    {primitive : Primitive}
    {handle : EventSet}
    {values : List Count}
    (hCall :
      primitive.call (source resolve) handle s =
        .ok values s₁) :
    Operation.Carried s (primitive.operation handle)
      (.counts values) s₁ := by
  apply Operation.carried_of_perform
  cases primitive <;> exact Action.bind_ok hCall

theorem followed_of_start
    {handle : EventSet}
    (hOk :
      Session.start (source resolve) handle (s, slot) =
        .ok () (s₁, slot₁)) :
    Followed s (.start handle) slot s₁ slot₁ := by
  unfold Session.start at hOk
  cases hStart : (source resolve).start handle s with
  | error e left => simp [hStart] at hOk
  | ok answer left =>
      have hCarried :
          Operation.Carried s (.start handle) .done left :=
        Operation.carried_of_perform _ (Action.bind_ok hStart)
      simp only [hStart] at hOk
      cases slot <;> cases hOk <;> exact .started _ _ _ hCarried

theorem followed_of_reset
    (hOk :
      Session.reset (source resolve) (s, session) =
        .ok () (s₁, session₁)) :
    Followed s .reset (some session) s₁ (some session₁) := by
  unfold Session.reset at hOk
  cases hReset : (source resolve).reset session.handle s with
  | error e left => simp [hReset] at hOk
  | ok answer left =>
      have hCarried :
          Operation.Carried s (.reset session.handle) .done
            left :=
        Operation.carried_of_perform _ (Action.bind_ok hReset)
      simp only [hReset] at hOk
      cases hOk
      exact .reset session _ hCarried

theorem followed_of_observe
    {primitive : Primitive}
    {instant : Instant}
    (hOk :
      Session.observe (source resolve) site now primitive
          permanent (s, session) =
        .ok instant (s₁, session₁)) :
    Followed s (.observe primitive site now permanent)
      (some session) s₁ (some session₁) := by
  rcases Session.exists_conduct (source resolve) site primitive
      session.handle s with
    ⟨calls, result, left, hConduct⟩
  rw [hConduct.observe_eq] at hOk
  cases result with
  | error failure => contradiction
  | ok observed =>
      rcases hConduct.call_eq_ok (transactional_source resolve)
        with ⟨values, hCall⟩
      simp only [Session.conclude, Session.commit_eq] at hOk
      cases hOk
      exact .observed _ _ _ _ _ _ _ (carried_of_call hCall)

/- Values that are recorded do not touch the source. -/
theorem followed_of_record
    {values : List Count}
    {instant : Instant}
    (hOk :
      Session.record (source resolve) site now values permanent
          (s, session) =
        .ok instant (s₁, session₁)) :
    Followed s (.record site now values permanent)
      (some session) s₁ (some session₁) := by
  have hSource := transactional_source resolve
  rcases Session.exists_recording (source resolve) site
      session.handle values s with
    ⟨result, left, hRecording⟩
  rw [hRecording.record_eq] at hOk
  cases hRecording with
  | unnamed hNames => contradiction
  | uneven hNames hCount => contradiction
  | unlocated hNames hCount hUnit => contradiction
  | located hNames hCount hUnit =>
      rw [hUnit.eq_of_transactional hSource,
        hNames.eq_of_transactional hSource] at hOk
      simp only [Session.concludeRecord,
        Session.commit_eq] at hOk
      cases hOk
      exact .recorded _ _ _ _ _ _

/- Whatever call succeeds, this is what it does. -/
theorem followed_of_perform
    {request : Request}
    {answer : Option Instant}
    (hOk :
      request.perform (source resolve) (s, slot) =
        .ok answer (s₁, slot₁)) :
    Followed s request slot s₁ slot₁ := by
  cases request with
  | start handle =>
      rcases Action.bind_pure_eq_ok hOk with ⟨_, hStart, -⟩
      exact followed_of_start hStart
  | reset =>
      rcases Action.bind_pure_eq_ok hOk with ⟨_, hReset, -⟩
      rcases Session.inSlot_eq_ok hReset with
        ⟨rfl, rfl, rfl, -⟩ | ⟨_, _, _, rfl, rfl, hDone, -⟩
      · exact .vacant _
      · exact followed_of_reset hDone
  | observe primitive site now permanent =>
      rcases Session.inSlot_eq_ok hOk with
        ⟨rfl, rfl, rfl, -⟩ | ⟨_, _, _, rfl, rfl, hDone, -⟩
      · exact .vacant _
      · exact followed_of_observe hDone
  | record site now values permanent =>
      rcases Session.inSlot_eq_ok hOk with
        ⟨rfl, rfl, rfl, -⟩ | ⟨_, _, _, rfl, rfl, hDone, -⟩
      · exact .vacant _
      · exact followed_of_record hDone

------------------------------------------------------------
-- Events of Running Sets
------------------------------------------------------------

/- Every event set that is running has events. -/
def Eventful (s : Simulated) : Prop :=
  ∀ handle set,
    s.sets.find? handle = some set →
      set.running = true → set.counters ≠ []

theorem Eventful.putSet
    (hEventful : s.Eventful)
    (handle : EventSet)
    {set : SimulatedSet}
    (hSet : set.running = true → set.counters ≠ []) :
    (s.putSet handle set).Eventful := by
  intro other found hFind
  rw [Simulated.putSet, OrderedMap.find?_insert] at hFind
  by_cases hOwn : other = handle
  · rw [if_pos hOwn] at hFind
    cases hFind
    exact hSet
  · rw [if_neg hOwn] at hFind
    exact hEventful other found hFind

/- No event is taken away from an event set. -/
theorem Operation.Alters.counters_ne_nil
    {operation : Operation}
    {answer : Answer}
    {handle : EventSet}
    {set altered : SimulatedSet}
    (hAlters : Alters s handle set operation answer altered)
    (hSome : set.counters ≠ []) :
    altered.counters ≠ [] := by
  cases hAlters with
  | addEvent | addNamedEvent | addRawEvent =>
      simp [SimulatedSet.push]
  | setBinding | migrate | read | stop => exact hSome
  | start | accumulate | reset =>
      simpa [SimulatedSet.zeroed] using hSome
  | execute =>
      unfold SimulatedSet.worked
      split
      · simpa using hSome
      · exact hSome

/-
  An event set is started only if it has events, and it keeps
  them while it is running.
-/
theorem Operation.Alters.eventful
    {operation : Operation}
    {answer : Answer}
    {handle : EventSet}
    {set altered : SimulatedSet}
    (hAlters : Alters s handle set operation answer altered)
    (hSet : set.running = true → set.counters ≠ [])
    (hRunning : altered.running = true) :
    altered.counters ≠ [] := by
  apply hAlters.counters_ne_nil
  cases hAlters with
  | start hStopped hSome => exact hSome
  | stop hRuns => contradiction
  | execute work count hWork =>
      apply hSet
      unfold SimulatedSet.worked at hRunning
      split at hRunning <;> assumption
  | _ => exact hSet hRunning

theorem Eventful.of_carried
    (hEventful : s.Eventful)
    {operation : Operation}
    {answer : Answer}
    (hCarried : operation.Carried s answer s₁) :
    s₁.Eventful := by
  cases hCarried with
  | defined code name weight => exact hEventful
  | created =>
      exact hEventful.putSet s.nextSet Bool.noConfusion
  | altered hFind hAlters =>
      exact hEventful.putSet _
        (hAlters.eventful (hEventful _ _ hFind))

------------------------------------------------------------
-- Readiness
------------------------------------------------------------

/-
  An event set can be observed from a unit: it is running, all
  of its events are known, its binding is resolved to the unit,
  and the site has a thread with the number of the unit.
-/
structure Ready
    (s : Simulated)
    (handle : EventSet)
    (resolve : UnitBinding → Except Error UnitId)
    (site : Site)
    (set : SimulatedSet)
    (unit : UnitId) : Prop where
  found : s.sets.find? handle = some set
  running : set.running = true
  known : ∀ code ∈ set.codes, (s.event? code).isSome = true
  resolved : resolve set.binding = .ok unit
  located :
    ∃ node ∈ site.topology.subtree site.root,
      site.topology.hasKindAndId .thread unit node = true

variable {handle : EventSet}
variable {set : SimulatedSet}
variable {unit : UnitId}

theorem askSet_eq_ok
    {α : Type}
    {ask : SimulatedSet → α}
    {value : α}
    (hOk : askSet handle ask s = .ok value s₁) :
    ∃ set, s.sets.find? handle = some set ∧ value = ask set := by
  cases hFind : s.sets.find? handle with
  | none => simp [askSet, hFind] at hOk
  | some set =>
      rw [askSet_eq hFind] at hOk
      cases hOk
      exact ⟨set, rfl, rfl⟩

/- The reporting unit is the one of the binding. -/
theorem currentUnit_source
    (hFind : s.sets.find? handle = some set)
    (resolve : UnitBinding → Except Error UnitId) :
    (source resolve).currentUnit handle s =
      CounterSource.answer (resolve set.binding) s :=
  Action.bind_ok (Action.adaptExcept_ok (askSet_eq hFind _))

theorem currentUnit_eq_ok_iff
    (hFind : s.sets.find? handle = some set) :
    (source resolve).currentUnit handle s = .ok unit s ↔
      resolve set.binding = .ok unit := by
  rw [currentUnit_source hFind]
  cases resolve set.binding with
  | error e => constructor <;> intro hUnit <;> contradiction
  | ok found =>
      constructor <;> intro hUnit <;> cases hUnit <;> rfl

/- Known events have names. -/
theorem exists_named_of_known
    (resolve : UnitBinding → Except Error UnitId)
    (codes : List EventCode)
    (hKnown : ∀ code ∈ codes, (s.event? code).isSome = true) :
    ∃ names, Session.Named (source resolve) codes names s s := by
  induction codes with
  | nil => exact ⟨[], .nil s⟩
  | cons code codes ih =>
      rcases ih fun other hOther =>
          hKnown other (List.mem_cons_of_mem code hOther) with
        ⟨names, hNames⟩
      rcases Option.isSome_iff_exists.mp
          (hKnown code List.mem_cons_self) with
        ⟨event, hEvent⟩
      have hName :
          (source resolve).eventName code s =
            .ok event.name s := by
        simp [source, CounterSource.resolvedBy, eventName, hEvent]
      exact ⟨event.name :: names, .cons hName hNames⟩

/- Events with names are known. -/
theorem known_of_named
    {codes : List EventCode}
    {names : List String}
    (hNamed :
      Session.Named (source resolve) codes names s s₁) :
    ∀ code ∈ codes, (s.event? code).isSome = true := by
  induction hNamed with
  | nil s => simp
  | @cons code name codes names s s₁ s₂ hName _ ih =>
      have hSame := (idle_eventName code).eq_of_ok hName
      subst hSame
      have hKnown : (s₁.event? code).isSome = true := by
        cases hEvent : s₁.event? code with
        | none =>
            simp [source, CounterSource.resolvedBy, eventName,
              hEvent] at hName
        | some event => rfl
      simpa [hKnown] using ih

/- An event set that has stopped gives no values. -/
theorem call_of_stopped
    (hFind : s.sets.find? handle = some set)
    (hStopped : set.running = false)
    (resolve : UnitBinding → Except Error UnitId)
    (primitive : Primitive) :
    primitive.call (source resolve) handle s =
      .error (notRunning handle) s := by
  cases primitive <;> exact take_of_stopped hFind hStopped _

theorem ready_of_conduct
    {primitive : Primitive}
    {calls : List CounterSource.Call}
    {observed : Session.Location × List Reading}
    (hConduct :
      Session.Conduct (source resolve) site primitive handle s
        calls (.ok observed) s₁) :
    ∃ set unit, s.Ready handle resolve site set unit := by
  have hSource := transactional_source resolve
  rcases hConduct.call_eq_ok hSource with ⟨values, hTaken⟩
  cases hConduct with
  | observed hNames hUnit hCall hCount =>
      rw [hNames.eq_of_transactional hSource] at hUnit
      cases hNames with
      | named hList hSome hNamed =>
          rw [(hSource.listEvents _).eq_of_ok hList] at hNamed
          rcases askSet_eq_ok hList with ⟨set, hFind, rfl⟩
          cases hUnit with
          | @located unit node _ hUnit hNode =>
              rw [(hSource.currentUnit _).eq_of_ok hUnit] at hUnit
              have hRunning : set.running = true := by
                cases hRuns : set.running with
                | true => rfl
                | false =>
                    rw [call_of_stopped hFind hRuns] at hTaken
                    contradiction
              exact ⟨set, unit, hFind, hRunning,
                known_of_named hNamed,
                (currentUnit_eq_ok_iff hFind).mp hUnit,
                List.find?_isSome.mp
                  (Option.isSome_of_eq_some hNode)⟩

/- An event set that is ready is observed. -/
theorem Ready.conduct
    (hEventful : s.Eventful)
    (hReady : s.Ready handle resolve site set unit)
    (primitive : Primitive) :
    ∃ calls observed s₁,
      Session.Conduct (source resolve) site primitive handle s
        calls (.ok observed) s₁ := by
  have hFind := hReady.found
  rcases exists_named_of_known resolve set.codes hReady.known with
    ⟨names, hNamed⟩
  rcases Option.isSome_iff_exists.mp
      (List.find?_isSome.mpr hReady.located) with
    ⟨node, hNode⟩
  have hSome : set.codes ≠ [] := by
    simpa [SimulatedSet.codes] using
      hEventful handle set hFind hReady.running
  have hNames :=
    Session.Naming.named (askSet_eq hFind SimulatedSet.codes)
      hSome hNamed
  have hUnit :=
    Session.Locating.located
      ((currentUnit_eq_ok_iff hFind).mpr hReady.resolved) hNode
  have hCall :=
    call_source hFind hReady.running resolve primitive
  have hCount : set.counts.length = names.length :=
    hNames.length_eq (transactional_source resolve) hCall
  exact ⟨_, _, _, .observed hNames hUnit hCall hCount⟩

/-
  As long as running event sets have events, an observation
  succeeds for exactly those event sets that are ready.
-/
theorem observe_ok_iff
    (hEventful : s.Eventful)
    (session : Session)
    (resolve : UnitBinding → Except Error UnitId)
    (site : Site)
    (now : Instant)
    (primitive : Primitive)
    (permanent : Bool) :
    (∃ instant after,
        Session.observe (source resolve) site now primitive
            permanent (s, session) =
          .ok instant after) ↔
      ∃ set unit,
        s.Ready session.handle resolve site set unit := by
  constructor
  · rintro ⟨instant, after, hOk⟩
    rcases Session.exists_conduct (source resolve) site primitive
        session.handle s with
      ⟨calls, result, left, hConduct⟩
    rw [hConduct.observe_eq] at hOk
    cases result with
    | error failure => contradiction
    | ok observed => exact ready_of_conduct hConduct
  · rintro ⟨set, unit, hReady⟩
    rcases hReady.conduct hEventful primitive with
      ⟨calls, observed, left, hConduct⟩
    exact ⟨_, _, hConduct.observe_eq now permanent⟩

end Simulated

end CoreTally
