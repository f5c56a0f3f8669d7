import CoreTally.Metric.Session
import CoreTally.Proofs.Metric.History

/-
  What an observation does when nothing fails: the answers of
  the source are committed to the ledger of the session, under
  the next instant.

  Key definitions include:
    * `Action.ending`
    * `Posting.Mode.primitive`

  Key theorems include:
    * `Action.mapM_ok`
    * `Session.observe_commit`
-/

namespace CoreTally

------------------------------------------------------------
-- Actions
------------------------------------------------------------

namespace Action

variable {ε σ α β : Type}

/- How an action ends in a state with a result. -/
def ending
    (state : σ) : Except ε α → EStateM.Result ε σ α
| .ok answer => .ok answer state
| .error e => .error e state

/- An action that succeeds hands its answer and state on. -/
theorem bind_ok
    {action : Action ε σ α}
    {next : α → Action ε σ β}
    {state state' : σ}
    {answer : α}
    (hAction : action state = .ok answer state') :
    (action >>= next) state = next answer state' := by
  simp [bind, EStateM.bind, hAction]

/- An action that fails ends what was to follow it. -/
theorem bind_error
    {action : Action ε σ α}
    {next : α → Action ε σ β}
    {state state' : σ}
    {e : ε}
    (hAction : action state = .error e state') :
    (action >>= next) state = .error e state' := by
  simp [bind, EStateM.bind, hAction]

/- A chain of actions succeeds if both of its parts do. -/
theorem bind_eq_ok
    {action : Action ε σ α}
    {next : α → Action ε σ β}
    {state state' : σ}
    {answer : β}
    (hBind : (action >>= next) state = .ok answer state') :
    ∃ value between,
      action state = .ok value between ∧
        next value between = .ok answer state' := by
  cases hAction : action state with
  | ok value between =>
      rw [bind_ok hAction] at hBind
      exact ⟨value, between, rfl, hBind⟩
  | error e between =>
      rw [bind_error hAction] at hBind
      contradiction

/- An answer in other words comes from an action that succeeds. -/
theorem bind_pure_eq_ok
    {action : Action ε σ α}
    {words : α → β}
    {state state' : σ}
    {answer : β}
    (hBind :
      (action >>= fun value => pure (words value)) state =
        .ok answer state') :
    ∃ value,
      action state = .ok value state' ∧ answer = words value := by
  rcases bind_eq_ok hBind with ⟨value, between, hAction, hPure⟩
  injection hPure with hAnswer hState
  exact ⟨value, hState ▸ hAction, hAnswer.symm⟩

variable {δ : Type}

/- Errors in other words do not change an answer. -/
theorem adaptExcept_ok
    {action : Action ε σ α}
    {state state' : σ}
    {answer : α}
    (hAction : action state = .ok answer state')
    {adapt : ε → δ} :
    (action.adaptExcept adapt : Action δ σ α) state =
      .ok answer state' := by
  simp [EStateM.adaptExcept, hAction]

theorem adaptExcept_error
    {action : Action ε σ α}
    {state state' : σ}
    {e : ε}
    (hAction : action state = .error e state')
    {adapt : ε → δ} :
    (action.adaptExcept adapt : Action δ σ α) state =
      .error (adapt e) state' := by
  simp [EStateM.adaptExcept, hAction]

/- Noting a call changes neither answers nor errors. -/
theorem noting_ok
    {action : Action ε σ α}
    {state state' : σ}
    {answer : α}
    (hAction : action state = .ok answer state')
    {call : CounterSource.Call}
    {calls : List CounterSource.Call} :
    CounterSource.noting call action (state, calls) =
      .ok answer (state', calls ++ [call]) := by
  simp only [CounterSource.noting, hAction]

theorem noting_error
    {action : Action ε σ α}
    {state state' : σ}
    {e : ε}
    (hAction : action state = .error e state')
    {call : CounterSource.Call}
    {calls : List CounterSource.Call} :
    CounterSource.noting call action (state, calls) =
      .error e (state', calls ++ [call]) := by
  simp only [CounterSource.noting, hAction]

/- An answer that is not needed leaves only the state. -/
theorem discard_ok
    {action : Action ε σ α}
    {state state' : σ}
    {answer : α}
    (hAction : action state = .ok answer state') :
    (discard action : Action ε σ PUnit) state = .ok ⟨⟩ state' := by
  change EStateM.map (Function.const α PUnit.unit) action state = _
  simp [EStateM.map, hAction]

/- Questions that are answered one by one keep the state. -/
theorem mapM_ok
    {ask : α → Action ε σ β}
    {answer : α → β}
    {state : σ}
    {items : List α}
    (hAsk : ∀ item ∈ items, ask item state = .ok (answer item) state) :
    items.mapM ask state = .ok (items.map answer) state := by
  induction items with
  | nil => rfl
  | cons item items ih =>
      have hRest := ih fun other hOther =>
        hAsk other (List.mem_cons_of_mem _ hOther)
      rw [List.mapM_cons, bind_ok (hAsk item List.mem_cons_self),
        bind_ok hRest]
      rfl

end Action

------------------------------------------------------------
-- Observations
------------------------------------------------------------

/- The primitive that obtains the values of a mode. -/
def Posting.Mode.primitive : Posting.Mode → Session.Primitive
| .read => .read
| .accumulate => .accumulate

namespace Session

variable {σ : Type}
variable {source : CounterSource σ}
variable {site : Site}
variable {session : Session}
variable {surveyed located called : σ}
variable {state : σ}
variable {names : List String}
variable {location : Location}
variable {values : List Count}

/- Values in the order of the events are readings of them. -/
theorem pair_map
    {ι : Type}
    (event : ι → String)
    (value : ι → Count)
    (items : List ι) :
    pair (items.map event) (items.map value) =
      readingsOf event value items := by
  simp [pair, readingsOf, List.zipWith_map, List.zipWith_self]

/-
  If all questions are answered and there is one value for each
  event, an observation commits the values.
-/
theorem observe_commit
    (hNames :
      eventNames source session.handle state = .ok names surveyed)
    (hLocation :
      locate source site session.handle surveyed =
        .ok location located)
    {primitive : Primitive}
    (hCall :
      primitive.call source session.handle located =
        .ok values called)
    (hLength : values.length = names.length)
    (now : Instant)
    (permanent : Bool) :
    let stored :=
      (session.after primitive).commit primitive location now
        (pair names values) permanent
    observe source site now primitive permanent (state, session) =
      .ok stored.2 (called, stored.1) := by
  have hSurvey :
      (do
        let names ← eventNames source session.handle
        let location ← locate source site session.handle
        return (names, location)) state =
          .ok (names, location) located := by
    rw [Action.bind_ok hNames, Action.bind_ok hLocation]
    rfl
  simp only [observe, hSurvey, hCall, hLength, if_true]

end Session

end CoreTally
