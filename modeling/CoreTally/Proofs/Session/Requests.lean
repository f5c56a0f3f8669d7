import CoreTally.Proofs.Session.Conduct

/-
  The calls that a program makes on the slot of a session: it
  starts event sets, resets their counters, and observes or
  records values. Each call may meet another source, and any
  source in any state. What it does to the slot is one of a few
  things, whatever is answered.

  Key definitions include:
    * `Session.Recording`
    * `Session.Request`
    * `Session.Request.perform`
    * `Session.Effect`
    * `Session.Turn`
    * `Session.slotAfter`

  Key theorems include:
    * `Session.Recording.record_eq`
    * `Session.effect_perform`
    * `Session.Turn.effect_after`
-/

namespace CoreTally

namespace Session

variable {σ : Type}
variable {source : CounterSource σ}
variable {site : Site}
variable {handle : EventSet}
variable {s s₁ : σ}
variable {calls : List CounterSource.Call}
variable {names : List String}
variable {values : List Count}

------------------------------------------------------------
-- Recorded Values
------------------------------------------------------------

/-
  What comes of values that were obtained elsewhere, and the
  state of the source afterwards. There must be one value for
  each event before the unit that reports is asked for.
-/
inductive Recording
    (source : CounterSource σ)
    (site : Site)
    (handle : EventSet)
    (values : List Count)
    (s : σ) :
    Except Error (Location × List Reading) → σ → Prop
| unnamed
    {naming : List CounterSource.Call}
    {failure : Failure}
    {s₁ : σ}
    (hNames :
      Naming source handle s naming (.error failure) s₁) :
    Recording source site handle values s
      (.error (failure.error handle)) s₁
| uneven
    {naming : List CounterSource.Call}
    {names : List String}
    {s₁ : σ}
    (hNames : Naming source handle s naming (.ok names) s₁)
    (hCount : names.length ≠ values.length) :
    Recording source site handle values s
      (.error
        (.argument
          (.valueCount handle names.length values.length))) s₁
| unlocated
    {naming locating : List CounterSource.Call}
    {names : List String}
    {failure : Failure}
    {s₁ s₂ : σ}
    (hNames : Naming source handle s naming (.ok names) s₁)
    (hCount : names.length = values.length)
    (hUnit :
      Locating source site handle s₁ locating
        (.error failure) s₂) :
    Recording source site handle values s
      (.error (failure.error handle)) s₂
| located
    {naming locating : List CounterSource.Call}
    {names : List String}
    {location : Location}
    {s₁ s₂ : σ}
    (hNames : Naming source handle s naming (.ok names) s₁)
    (hCount : names.length = values.length)
    (hUnit :
      Locating source site handle s₁ locating
        (.ok location) s₂) :
    Recording source site handle values s
      (.ok (location, pair names values)) s₂

theorem exists_recording
    (source : CounterSource σ)
    (site : Site)
    (handle : EventSet)
    (values : List Count)
    (s : σ) :
    ∃ result s₁,
      Recording source site handle values s result s₁ := by
  rcases exists_naming source handle s with
    ⟨naming, result, s₁, hNames⟩
  cases result with
  | error failure => exact ⟨_, s₁, .unnamed hNames⟩
  | ok names =>
      by_cases hCount : names.length = values.length
      · rcases exists_locating source site handle s₁ with
          ⟨locating, result, s₂, hUnit⟩
        cases result with
        | error failure =>
            exact ⟨_, s₂, .unlocated hNames hCount hUnit⟩
        | ok location =>
            exact ⟨_, s₂, .located hNames hCount hUnit⟩
      · exact ⟨_, s₁, .uneven hNames hCount⟩

/-
  What a session makes of recorded values: a failure keeps it,
  and readings are stored as those of a read.
-/
def concludeRecord
    (session : Session)
    (now : Instant)
    (permanent : Bool)
    (s : σ) :
    Except Error (Location × List Reading) →
      EStateM.Result Error (σ × Session) Instant
| .error e => .error e (s, session)
| .ok (location, readings) =>
    let (session, instant) :=
      session.commit .read location now readings permanent
    .ok instant (s, session)

/- Values are recorded as the answers of the source say. -/
theorem Recording.record_eq
    {session : Session}
    {result : Except Error (Location × List Reading)}
    (hRecording :
      Recording source site session.handle values s result s₁)
    (now : Instant)
    (permanent : Bool) :
    record source site now values permanent (s, session) =
      concludeRecord session now permanent s₁ result := by
  unfold record
  cases hRecording with
  | unnamed hNames =>
      simp only [Action.bind_error hNames.eventNames_eq]
      rfl
  | uneven hNames hCount =>
      simp only [Action.bind_ok hNames.eventNames_eq,
        if_neg hCount]
      rfl
  | unlocated hNames hCount hUnit =>
      simp only [Action.bind_ok hNames.eventNames_eq,
        if_pos hCount, Action.bind_error hUnit.locate_eq]
      rfl
  | located hNames hCount hUnit =>
      simp only [Action.bind_ok hNames.eventNames_eq,
        if_pos hCount, Action.bind_ok hUnit.locate_eq]
      rfl

------------------------------------------------------------
-- Requests
------------------------------------------------------------

/- A call on the slot of a session, with the clock reading. -/
inductive Request where
| start (handle : EventSet)
| reset
| observe
    (primitive : Primitive)
    (site : Site)
    (now : Instant)
    (permanent : Bool)
| record
    (site : Site)
    (now : Instant)
    (values : List Count)
    (permanent : Bool)

/- Do something with the session of a slot, if it holds one. -/
def inSlot
    {α : Type}
    (action : Action Error (σ × Session) α) :
    Action Error (σ × Option Session) (Option α) :=
  fun (s, slot) =>
    match slot with
    | none => .ok none (s, none)
    | some session =>
        match action (s, session) with
        | .ok answer (s, session) =>
            .ok (some answer) (s, some session)
        | .error e (s, session) => .error e (s, some session)

/-
  Make a call. The answer is the instant under which readings
  were stored, if there are some.
-/
def Request.perform
    (source : CounterSource σ) :
    Request →
      Action Error (σ × Option Session) (Option Instant)
| start handle => do
    Session.start source handle
    return none
| reset => do
    let _ ← inSlot (Session.reset source)
    return none
| observe primitive site now permanent =>
    inSlot (Session.observe source site now primitive permanent)
| record site now values permanent =>
    inSlot (Session.record source site now values permanent)

theorem inSlot_ok
    {α : Type}
    {action : Action Error (σ × Session) α}
    {session session' : Session}
    {answer : α}
    (hAction :
      action (s, session) = .ok answer (s₁, session')) :
    inSlot action (s, some session) =
      .ok (some answer) (s₁, some session') := by
  simp only [inSlot, hAction]

theorem inSlot_error
    {α : Type}
    {action : Action Error (σ × Session) α}
    {session session' : Session}
    {e : Error}
    (hAction : action (s, session) = .error e (s₁, session')) :
    inSlot action (s, some session) =
      .error e (s₁, some session') := by
  simp only [inSlot, hAction]

/- What succeeds in a slot succeeds for its session, if any. -/
theorem inSlot_eq_ok
    {α : Type}
    {action : Action Error (σ × Session) α}
    {slot slot₁ : Option Session}
    {answer : Option α}
    (hOk : inSlot action (s, slot) = .ok answer (s₁, slot₁)) :
    (slot = none ∧ slot₁ = none ∧ s₁ = s ∧ answer = none) ∨
      ∃ session session₁ value,
        slot = some session ∧ slot₁ = some session₁ ∧
          action (s, session) = .ok value (s₁, session₁) ∧
            answer = some value := by
  cases slot with
  | none =>
      cases hOk
      exact .inl ⟨rfl, rfl, rfl, rfl⟩
  | some session =>
      cases hAction : action (s, session) with
      | error e left =>
          rw [inSlot_error hAction] at hOk
          contradiction
      | ok value left =>
          rw [inSlot_ok hAction] at hOk
          cases hOk
          exact .inr ⟨session, _, value, rfl, rfl, hAction, rfl⟩

------------------------------------------------------------
-- Effects
------------------------------------------------------------

/-
  What a call may do to a slot, with its answer. A call that
  fails has at most stopped the session, and one that brings
  values stores them all under the next instant.
-/
inductive Effect :
    Option Session → Except Error (Option Instant) →
      Option Session → Prop
| failed
    (e : Error)
    (slot : Option Session) :
    Effect slot (.error e) slot
| halted
    (e : Error)
    (session : Session) :
    Effect (some session) (.error e)
      (some { session with running := false })
| vacant :
    Effect none (.ok none) none
| created
    (handle : EventSet) :
    Effect none (.ok none) (some (fresh handle))
| rebound
    (session : Session)
    (handle : EventSet) :
    Effect (some session) (.ok none)
      (some (session.rebind handle))
| reset
    (session : Session) :
    Effect (some session) (.ok none)
      (some
        { session with ledger := session.ledger.requestReset })
| stored
    (session : Session)
    (running : Bool)
    (now : Instant)
    (mode : Posting.Mode)
    (batch : Batch)
    (hInstant :
      batch.instant = Instant.next now session.latest)
    (hReadings : batch.readings ≠ []) :
    Effect (some session) (.ok (some batch.instant))
      (some
        { session with
          running := running
          ledger := session.ledger.apply (.store mode batch) })

/- The mode in which the values of a primitive are stored. -/
def Primitive.mode : Primitive → Posting.Mode
| .accumulate => .accumulate
| .read | .stop => .read

/- To commit readings is an operation of the ledger. -/
theorem commit_eq
    (session : Session)
    (primitive : Primitive)
    (location : Location)
    (now : Instant)
    (readings : List Reading)
    (permanent : Bool) :
    session.commit primitive location now readings permanent =
      ({ session with
          ledger :=
            session.ledger.apply
              (.store primitive.mode
                ⟨location.unit, location.node,
                  Instant.next now session.latest, readings,
                  permanent⟩) },
        Instant.next now session.latest) := by
  cases primitive <;> rfl

theorem Named.length_eq
    {codes : List EventCode}
    (hNamed : Named source codes names s s₁) :
    names.length = codes.length := by
  induction hNamed with
  | nil s => rfl
  | cons _ _ ih => simp [ih]

/- An event set whose events all have names has some. -/
theorem Naming.names_ne_nil
    (hNaming : Naming source handle s calls (.ok names) s₁) :
    names ≠ [] := by
  cases hNaming with
  | named hList hSome hNames =>
      apply List.ne_nil_of_length_pos
      rw [hNames.length_eq]
      exact List.length_pos_of_ne_nil hSome

/- As many values as there are names make some readings. -/
theorem Naming.pair_ne_nil
    (hNaming : Naming source handle s calls (.ok names) s₁)
    (hCount : names.length = values.length) :
    pair names values ≠ [] := by
  have hSome := List.length_pos_of_ne_nil hNaming.names_ne_nil
  apply List.ne_nil_of_length_pos
  simpa [pair, ← hCount] using hSome

theorem Conduct.readings_ne_nil
    {primitive : Primitive}
    {location : Location}
    {readings : List Reading}
    (hConduct :
      Conduct source site primitive handle s calls
        (.ok (location, readings)) s₁) :
    readings ≠ [] := by
  cases hConduct with
  | observed hNames hUnit hCall hCount =>
      exact hNames.pair_ne_nil hCount.symm

theorem Recording.readings_ne_nil
    {location : Location}
    {readings : List Reading}
    (hRecording :
      Recording source site handle values s
        (.ok (location, readings)) s₁) :
    readings ≠ [] := by
  cases hRecording with
  | located hNames hCount hUnit => exact hNames.pair_ne_nil hCount

/- A failure leaves the session as it was, or stopped. -/
theorem effect_left
    (session : Session)
    (failure : Failure)
    (e : Error) :
    Effect (some session) (.error e)
      (some (failure.left session)) := by
  cases hHalts : failure.halts with
  | false =>
      rw [Failure.left_of_not_halts session hHalts]
      exact .failed e _
  | true =>
      simpa [Failure.left, hHalts] using Effect.halted e session

/- Readings are stored, also for a session that has stopped. -/
theorem effect_commit
    (session : Session)
    (running : Bool)
    (primitive : Primitive)
    (location : Location)
    (now : Instant)
    {readings : List Reading}
    (hReadings : readings ≠ [])
    (permanent : Bool) :
    let stored :=
      { session with running := running }.commit primitive
        location now readings permanent
    Effect (some session) (.ok (some stored.2))
      (some stored.1) := by
  intro stored
  have hStored :=
    Effect.stored session running now primitive.mode
      ⟨location.unit, location.node,
        Instant.next now session.latest, readings, permanent⟩
      rfl hReadings
  simp only [stored, commit_eq]
  exact hStored

/- An observation fails, or it stores its readings. -/
theorem effect_observe
    (source : CounterSource σ)
    (primitive : Primitive)
    (site : Site)
    (now : Instant)
    (permanent : Bool)
    (s : σ)
    (session : Session) :
    ∃ result s₁ slot,
      Effect (some session) result slot ∧
        inSlot (observe source site now primitive permanent)
            (s, some session) =
          Action.ending (s₁, slot) result := by
  rcases exists_conduct source site primitive session.handle s
    with ⟨calls, result, s₁, hConduct⟩
  have hObserve := hConduct.observe_eq now permanent
  cases result with
  | error failure =>
      exact ⟨_, s₁, _, effect_left session failure _,
        inSlot_error hObserve⟩
  | ok observed =>
      have hStored :=
        effect_commit session (session.after primitive).running
          primitive observed.1 now hConduct.readings_ne_nil
          permanent
      have hAfter :
          { session with
            running := (session.after primitive).running } =
          session.after primitive := by
        cases primitive <;> rfl
      rw [hAfter] at hStored
      exact ⟨_, s₁, _, hStored, inSlot_ok hObserve⟩

/- Recorded values are refused, or they are stored. -/
theorem effect_record
    (source : CounterSource σ)
    (site : Site)
    (now : Instant)
    (values : List Count)
    (permanent : Bool)
    (s : σ)
    (session : Session) :
    ∃ result s₁ slot,
      Effect (some session) result slot ∧
        inSlot (record source site now values permanent)
            (s, some session) =
          Action.ending (s₁, slot) result := by
  rcases exists_recording source site session.handle values s
    with ⟨result, s₁, hRecording⟩
  have hRecord := hRecording.record_eq now permanent
  cases result with
  | error e =>
      exact ⟨_, s₁, _, .failed e _, inSlot_error hRecord⟩
  | ok recorded =>
      have hStored :=
        effect_commit session session.running .read recorded.1
          now hRecording.readings_ne_nil permanent
      exact ⟨_, s₁, _, hStored, inSlot_ok hRecord⟩

/- A start that succeeds creates or rebinds a session. -/
theorem effect_start
    (source : CounterSource σ)
    (handle : EventSet)
    (s : σ)
    (slot : Option Session) :
    ∃ result s₁ slot',
      Effect slot result slot' ∧
        (Request.start handle).perform source (s, slot) =
          Action.ending (s₁, slot') result := by
  cases hStart : source.start handle s with
  | error cause s₁ =>
      have hFailed :
          start source handle (s, slot) =
            .error (.backend cause) (s₁, slot) := by
        simp only [start, hStart]
      exact ⟨_, s₁, slot, .failed _ _, Action.bind_error hFailed⟩
  | ok _ s₁ =>
      cases slot with
      | none =>
          have hFresh :
              start source handle (s, none) =
                .ok () (s₁, some (fresh handle)) := by
            simp only [start, hStart]
          exact ⟨_, s₁, _, .created handle,
            Action.bind_ok hFresh⟩
      | some session =>
          have hRebind :
              start source handle (s, some session) =
                .ok () (s₁, some (session.rebind handle)) := by
            simp only [start, hStart]
          exact ⟨_, s₁, _, .rebound session handle,
            Action.bind_ok hRebind⟩

/- A reset that succeeds makes the next read purge. -/
theorem effect_reset
    (source : CounterSource σ)
    (s : σ)
    (session : Session) :
    ∃ result s₁ slot,
      Effect (some session) result slot ∧
        Request.reset.perform source (s, some session) =
          Action.ending (s₁, slot) result := by
  cases hReset : source.reset session.handle s with
  | error cause s₁ =>
      have hFailed :
          Session.reset source (s, session) =
            .error (.backend cause) (s₁, session) := by
        simp only [Session.reset, hReset]
      exact ⟨_, s₁, _, .failed _ _,
        Action.bind_error (inSlot_error hFailed)⟩
  | ok _ s₁ =>
      have hDone :
          Session.reset source (s, session) =
            .ok ()
              (s₁,
                { session with
                  ledger := session.ledger.requestReset }) := by
        simp only [Session.reset, hReset]
      exact ⟨_, s₁, _, .reset session,
        Action.bind_ok (inSlot_ok hDone)⟩

/- Whatever a source answers, a call has one of the effects. -/
theorem effect_perform
    (request : Request)
    (source : CounterSource σ)
    (s : σ)
    (slot : Option Session) :
    ∃ result s₁ slot',
      Effect slot result slot' ∧
        request.perform source (s, slot) =
          Action.ending (s₁, slot') result := by
  cases request with
  | start handle => exact effect_start ..
  | reset =>
      cases slot with
      | none => exact ⟨_, s, _, .vacant, rfl⟩
      | some session => exact effect_reset ..
  | observe primitive site now permanent =>
      cases slot with
      | none => exact ⟨_, s, _, .vacant, rfl⟩
      | some session => exact effect_observe ..
  | record site now values permanent =>
      cases slot with
      | none => exact ⟨_, s, _, .vacant, rfl⟩
      | some session => exact effect_record ..

------------------------------------------------------------
-- Runs
------------------------------------------------------------

/-
  A call together with the source that it meets, in the state
  in which it meets it.
-/
structure Turn where
  World : Type
  source : CounterSource World
  world : World
  request : Request

/- The slot after a call, which may have failed. -/
def Turn.after
    (turn : Turn)
    (slot : Option Session) : Option Session :=
  match turn.request.perform turn.source (turn.world, slot) with
  | .ok _ (_, slot) => slot
  | .error _ (_, slot) => slot

/- What some calls, made in turn, leave in an empty slot. -/
def slotAfter (turns : List Turn) : Option Session :=
  turns.foldl (fun slot turn => turn.after slot) none

theorem Turn.effect_after
    (turn : Turn)
    (slot : Option Session) :
    ∃ result, Effect slot result (turn.after slot) := by
  rcases effect_perform turn.request turn.source turn.world slot
    with ⟨result, s₁, slot', hEffect, hPerform⟩
  have hAfter : turn.after slot = slot' := by
    rw [Turn.after, hPerform]
    cases result <;> rfl
  rw [hAfter]
  exact ⟨result, hEffect⟩

theorem slotAfter_concat
    (turns : List Turn)
    (turn : Turn) :
    slotAfter (turns ++ [turn]) =
      turn.after (slotAfter turns) := by
  rw [slotAfter, List.foldl_append]
  rfl

end Session

end CoreTally
