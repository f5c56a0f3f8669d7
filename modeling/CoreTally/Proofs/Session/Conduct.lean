import CoreTally.Counter.Scripted
import CoreTally.Proofs.Session.Observation

/-
  How an observation deals with a source that may answer
  anything. It asks for the events of the event set, for the
  name of each of them and for the unit that reports, and only
  then calls its primitive. The first step that fails ends it.

  The relations of this file say which calls are made on the
  way and what comes of them. They follow the answers of the
  source and know nothing of the order in which an observation
  is programmed.

  Key definitions include:
    * `Session.Failure`
    * `Session.Naming`
    * `Session.Locating`
    * `Session.Conduct`
    * `Session.conclude`

  Key theorems include:
    * `Session.exists_conduct`
    * `Session.Conduct.observe_eq`
    * `Session.Conduct.recorded`
    * `Session.observe_calls_in_order`
-/

namespace CoreTally

namespace Session

open CounterSource (Call noting)

------------------------------------------------------------
-- Failures
------------------------------------------------------------

/-
  The steps at which an observation may fail: the events are
  not listed, there are none, one has no name, the unit is not
  resolved or has no thread, the primitive is refused, or it
  returns another number of values than there are events.
-/
inductive Failure where
| unlisted (cause : BackendError)
| eventless
| nameless (code : EventCode) (cause : BackendError)
| unresolved (cause : Error)
| threadless (unit : UnitId)
| refused (cause : BackendError)
| miscounted (primitive : Primitive) (values events : Nat)
deriving DecidableEq, Repr

namespace Failure

/- The error that is reported. -/
def error (handle : EventSet) : Failure → Error
| unlisted cause => .backend cause
| eventless => .argument (.emptyEventSet handle)
| nameless code cause => .argument (.unnamedEvent code cause)
| unresolved cause => cause
| threadless unit => .argument (.noThread unit)
| refused cause => .backend cause
| miscounted primitive values events =>
    .backend (wrongCount primitive values events)

/-
  The status code that is reported. What the source itself
  rejects keeps its own one.
-/
def status : Failure → Status
| unlisted cause => cause.status
| eventless => .invalid
| nameless _ _ => .invalid
| unresolved cause => cause.status
| threadless _ => .invalid
| refused cause => cause.status
| miscounted _ _ _ => .other

/- The kind of error that is reported. -/
def category : Failure → String
| unlisted _ => "backend"
| eventless => "validation"
| nameless _ _ => "validation"
| unresolved cause => cause.category
| threadless _ => "validation"
| refused _ => "backend"
| miscounted _ _ _ => "backend"

/- A stop was carried out before its values were counted. -/
def halts : Failure → Bool
| miscounted .stop _ _ => true
| _ => false

/- The session that is left. -/
def left (session : Session) (failure : Failure) : Session where
  handle := session.handle
  running := session.running && !failure.halts
  ledger := session.ledger

theorem left_of_not_halts
    (session : Session)
    {failure : Failure}
    (hHalts : failure.halts = false) :
    failure.left session = session := by
  simp [left, hHalts]

theorem left_miscounted
    (session : Session)
    (primitive : Primitive)
    (values events : Nat) :
    (miscounted primitive values events).left session =
      session.after primitive := by
  cases primitive <;> simp [left, halts, Session.after]

theorem status_error
    (failure : Failure)
    (handle : EventSet) :
    (failure.error handle).status = failure.status := by
  cases failure <;> rfl

theorem category_error
    (failure : Failure)
    (handle : EventSet) :
    (failure.error handle).category = failure.category := by
  cases failure <;> rfl

end Failure

------------------------------------------------------------
-- Questions
------------------------------------------------------------

variable {σ : Type}

/- The names of some codes, asked for one after another. -/
inductive Named
    (source : CounterSource σ) :
    List EventCode → List String → σ → σ → Prop
| nil
    (s : σ) :
    Named source [] [] s s
| cons
    {code : EventCode}
    {name : String}
    {codes : List EventCode}
    {names : List String}
    {s s₁ s₂ : σ}
    (hName : source.eventName code s = .ok name s₁)
    (hNames : Named source codes names s₁ s₂) :
    Named source (code :: codes) (name :: names) s s₂

/-
  The calls that ask for the names of an event set, what comes
  of them, and the state of the source afterwards.
-/
inductive Naming
    (source : CounterSource σ)
    (handle : EventSet)
    (s : σ) :
    List Call → Except Failure (List String) → σ → Prop
| unlisted
    {cause : BackendError}
    {s₁ : σ}
    (hList : source.listEvents handle s = .error cause s₁) :
    Naming source handle s [.listEvents handle]
      (.error (.unlisted cause)) s₁
| eventless
    {s₁ : σ}
    (hList : source.listEvents handle s = .ok [] s₁) :
    Naming source handle s [.listEvents handle]
      (.error .eventless) s₁
| nameless
    {front back : List EventCode}
    {code : EventCode}
    {names : List String}
    {cause : BackendError}
    {s₁ s₂ s₃ : σ}
    (hList :
      source.listEvents handle s =
        .ok (front ++ code :: back) s₁)
    (hFront : Named source front names s₁ s₂)
    (hName : source.eventName code s₂ = .error cause s₃) :
    Naming source handle s
      (.listEvents handle :: (front ++ [code]).map .eventName)
      (.error (.nameless code cause)) s₃
| named
    {codes : List EventCode}
    {names : List String}
    {s₁ s₂ : σ}
    (hList : source.listEvents handle s = .ok codes s₁)
    (hSome : codes ≠ [])
    (hNames : Named source codes names s₁ s₂) :
    Naming source handle s
      (.listEvents handle :: codes.map .eventName)
      (.ok names) s₂

/- The call that asks where an event set reports from. -/
inductive Locating
    (source : CounterSource σ)
    (site : Site)
    (handle : EventSet)
    (s : σ) :
    List Call → Except Failure Location → σ → Prop
| unresolved
    {cause : Error}
    {s₁ : σ}
    (hUnit : source.currentUnit handle s = .error cause s₁) :
    Locating source site handle s [.currentUnit handle]
      (.error (.unresolved cause)) s₁
| threadless
    {unit : UnitId}
    {s₁ : σ}
    (hUnit : source.currentUnit handle s = .ok unit s₁)
    (hNode :
      site.topology.find? site.root unit .thread = none) :
    Locating source site handle s [.currentUnit handle]
      (.error (.threadless unit)) s₁
| located
    {unit : UnitId}
    {node : Nat}
    {s₁ : σ}
    (hUnit : source.currentUnit handle s = .ok unit s₁)
    (hNode :
      site.topology.find? site.root unit .thread = some node) :
    Locating source site handle s [.currentUnit handle]
      (.ok ⟨unit, node⟩) s₁

------------------------------------------------------------
-- Observations
------------------------------------------------------------

/- The call of a primitive. -/
def Primitive.toCall : Primitive → EventSet → Call
| .read => .read
| .accumulate => .accumulate
| .stop => .stop

/-
  The calls that an observation makes, what comes of them, and
  the state of the source afterwards. The primitive is called
  once all questions have been answered.
-/
inductive Conduct
    (source : CounterSource σ)
    (site : Site)
    (primitive : Primitive)
    (handle : EventSet)
    (s : σ) :
    List Call →
      Except Failure (Location × List Reading) → σ → Prop
| unnamed
    {naming : List Call}
    {failure : Failure}
    {s₁ : σ}
    (hNames :
      Naming source handle s naming (.error failure) s₁) :
    Conduct source site primitive handle s naming
      (.error failure) s₁
| unlocated
    {naming locating : List Call}
    {names : List String}
    {failure : Failure}
    {s₁ s₂ : σ}
    (hNames : Naming source handle s naming (.ok names) s₁)
    (hUnit :
      Locating source site handle s₁ locating
        (.error failure) s₂) :
    Conduct source site primitive handle s
      (naming ++ locating) (.error failure) s₂
| refused
    {naming locating : List Call}
    {names : List String}
    {location : Location}
    {cause : BackendError}
    {s₁ s₂ s₃ : σ}
    (hNames : Naming source handle s naming (.ok names) s₁)
    (hUnit :
      Locating source site handle s₁ locating
        (.ok location) s₂)
    (hCall :
      primitive.call source handle s₂ = .error cause s₃) :
    Conduct source site primitive handle s
      (naming ++ locating ++ [primitive.toCall handle])
      (.error (.refused cause)) s₃
| miscounted
    {naming locating : List Call}
    {names : List String}
    {location : Location}
    {values : List Count}
    {s₁ s₂ s₃ : σ}
    (hNames : Naming source handle s naming (.ok names) s₁)
    (hUnit :
      Locating source site handle s₁ locating
        (.ok location) s₂)
    (hCall : primitive.call source handle s₂ = .ok values s₃)
    (hCount : values.length ≠ names.length) :
    Conduct source site primitive handle s
      (naming ++ locating ++ [primitive.toCall handle])
      (.error
        (.miscounted primitive values.length names.length)) s₃
| observed
    {naming locating : List Call}
    {names : List String}
    {location : Location}
    {values : List Count}
    {s₁ s₂ s₃ : σ}
    (hNames : Naming source handle s naming (.ok names) s₁)
    (hUnit :
      Locating source site handle s₁ locating
        (.ok location) s₂)
    (hCall : primitive.call source handle s₂ = .ok values s₃)
    (hCount : values.length = names.length) :
    Conduct source site primitive handle s
      (naming ++ locating ++ [primitive.toCall handle])
      (.ok (location, pair names values)) s₃

/-
  What an observation makes of its calls: a failure leaves the
  session as `Failure.left` says, and readings are stored.
-/
def conclude
    (session : Session)
    (primitive : Primitive)
    (now : Instant)
    (permanent : Bool)
    (s : σ) :
    Except Failure (Location × List Reading) →
      EStateM.Result Error (σ × Session) Instant
| .error failure =>
    .error (failure.error session.handle)
      (s, failure.left session)
| .ok (location, readings) =>
    let (session, instant) :=
      (session.after primitive).commit primitive location now
        readings permanent
    .ok instant (s, session)

------------------------------------------------------------
-- Answers in Any State
------------------------------------------------------------

variable {source : CounterSource σ}
variable {site : Site}
variable {primitive : Primitive}
variable {handle : EventSet}
variable {s s₁ s₂ : σ}
variable {calls : List Call}

/- Codes have names, up to the first one that has none. -/
theorem exists_named
    (source : CounterSource σ)
    (codes : List EventCode)
    (s : σ) :
    (∃ names s₁, Named source codes names s s₁) ∨
      ∃ front code back names s₁ cause s₂,
        codes = front ++ code :: back ∧
          Named source front names s s₁ ∧
          source.eventName code s₁ = .error cause s₂ := by
  induction codes generalizing s with
  | nil => exact .inl ⟨[], s, .nil s⟩
  | cons code codes ih =>
      cases hName : source.eventName code s with
      | error cause s₁ =>
          exact .inr
            ⟨[], code, codes, [], s, cause, s₁, rfl, .nil s,
              hName⟩
      | ok name s₁ =>
          rcases ih s₁ with
            ⟨names, s₂, hNames⟩ |
            ⟨front, other, back, names, s₂, cause, s₃, rfl,
              hFront, hOther⟩
          · exact .inl ⟨name :: names, s₂, .cons hName hNames⟩
          · exact .inr
              ⟨code :: front, other, back, name :: names, s₂,
                cause, s₃, rfl, .cons hName hFront, hOther⟩

theorem exists_naming
    (source : CounterSource σ)
    (handle : EventSet)
    (s : σ) :
    ∃ calls result s₁,
      Naming source handle s calls result s₁ := by
  cases hList : source.listEvents handle s with
  | error cause s₁ => exact ⟨_, _, s₁, .unlisted hList⟩
  | ok codes s₁ =>
      by_cases hSome : codes = []
      · subst hSome
        exact ⟨_, _, s₁, .eventless hList⟩
      · rcases exists_named source codes s₁ with
          ⟨names, s₂, hNames⟩ |
          ⟨front, code, back, names, s₂, cause, s₃, rfl,
            hFront, hName⟩
        · exact ⟨_, _, s₂, .named hList hSome hNames⟩
        · exact ⟨_, _, s₃, .nameless hList hFront hName⟩

theorem exists_locating
    (source : CounterSource σ)
    (site : Site)
    (handle : EventSet)
    (s : σ) :
    ∃ calls result s₁,
      Locating source site handle s calls result s₁ := by
  cases hUnit : source.currentUnit handle s with
  | error cause s₁ => exact ⟨_, _, s₁, .unresolved hUnit⟩
  | ok unit s₁ =>
      cases hNode :
          site.topology.find? site.root unit .thread with
      | none => exact ⟨_, _, s₁, .threadless hUnit hNode⟩
      | some node => exact ⟨_, _, s₁, .located hUnit hNode⟩

/- Whatever a source answers, there is a way to deal with it. -/
theorem exists_conduct
    (source : CounterSource σ)
    (site : Site)
    (primitive : Primitive)
    (handle : EventSet)
    (s : σ) :
    ∃ calls result s₁,
      Conduct source site primitive handle s calls result
        s₁ := by
  rcases exists_naming source handle s with
    ⟨naming, result, s₁, hNames⟩
  cases result with
  | error failure => exact ⟨_, _, s₁, .unnamed hNames⟩
  | ok names =>
      rcases exists_locating source site handle s₁ with
        ⟨locating, result, s₂, hUnit⟩
      cases result with
      | error failure => exact ⟨_, _, s₂, .unlocated hNames hUnit⟩
      | ok location =>
          cases hCall : primitive.call source handle s₂ with
          | error cause s₃ =>
              exact ⟨_, _, s₃, .refused hNames hUnit hCall⟩
          | ok values s₃ =>
              by_cases hCount : values.length = names.length
              · exact ⟨_, _, s₃,
                  .observed hNames hUnit hCall hCount⟩
              · exact ⟨_, _, s₃,
                  .miscounted hNames hUnit hCall hCount⟩

------------------------------------------------------------
-- Answers in the Program
------------------------------------------------------------

theorem eventName_ok
    {code : EventCode}
    {name : String}
    (hName : source.eventName code s = .ok name s₁) :
    eventName source code s = .ok name s₁ :=
  Action.adaptExcept_ok hName

theorem eventName_error
    {code : EventCode}
    {cause : BackendError}
    (hName : source.eventName code s = .error cause s₁) :
    eventName source code s =
      .error (.argument (.unnamedEvent code cause)) s₁ :=
  Action.adaptExcept_error hName

theorem Named.mapM_eq
    {codes : List EventCode}
    {names : List String}
    (hNamed : Named source codes names s s₁) :
    codes.mapM (eventName source) s = .ok names s₁ := by
  induction hNamed with
  | nil s => rfl
  | cons hName _ ih =>
      rw [List.mapM_cons, Action.bind_ok (eventName_ok hName),
        Action.bind_ok ih]
      rfl

/- A code without name ends the questions for all of them. -/
theorem Named.mapM_append_eq
    {front : List EventCode}
    {names : List String}
    (hFront : Named source front names s s₁)
    {code : EventCode}
    {cause : BackendError}
    (hName : source.eventName code s₁ = .error cause s₂)
    (back : List EventCode) :
    (front ++ code :: back).mapM (eventName source) s =
      .error (.argument (.unnamedEvent code cause)) s₂ := by
  induction hFront with
  | nil s =>
      rw [List.nil_append, List.mapM_cons,
        Action.bind_error (eventName_error hName)]
  | cons hOther _ ih =>
      rw [List.cons_append, List.mapM_cons,
        Action.bind_ok (eventName_ok hOther),
        Action.bind_error (ih hName)]

theorem Naming.eventNames_eq
    {result : Except Failure (List String)}
    (hNaming : Naming source handle s calls result s₁) :
    eventNames source handle s =
      Action.ending s₁
        (result.mapError (Failure.error handle)) := by
  unfold eventNames
  cases hNaming with
  | unlisted hList =>
      rw [Action.bind_error (Action.adaptExcept_error hList)]
      rfl
  | eventless hList =>
      rw [Action.bind_ok (Action.adaptExcept_ok hList)]
      rfl
  | nameless hList hFront hName =>
      rw [Action.bind_ok (Action.adaptExcept_ok hList),
        if_neg (by simp), hFront.mapM_append_eq hName]
      rfl
  | named hList hSome hNames =>
      rw [Action.bind_ok (Action.adaptExcept_ok hList),
        if_neg (by simpa using hSome), hNames.mapM_eq]
      rfl

theorem Locating.locate_eq
    {result : Except Failure Location}
    (hLocating : Locating source site handle s calls result s₁) :
    locate source site handle s =
      Action.ending s₁
        (result.mapError (Failure.error handle)) := by
  unfold locate
  cases hLocating with
  | unresolved hUnit =>
      rw [Action.bind_error hUnit]
      rfl
  | threadless hUnit hNode =>
      rw [Action.bind_ok hUnit, locateUnit, hNode]
      rfl
  | located hUnit hNode =>
      rw [Action.bind_ok hUnit, locateUnit, hNode]
      rfl

/- Questions leave the session alone, whatever fails. -/
theorem Naming.not_halts
    {failure : Failure}
    (hNaming :
      Naming source handle s calls (.error failure) s₁) :
    failure.halts = false := by
  cases hNaming <;> rfl

theorem Locating.not_halts
    {failure : Failure}
    (hLocating :
      Locating source site handle s calls (.error failure) s₁) :
    failure.halts = false := by
  cases hLocating <;> rfl

/- An observation ends as its conduct says. -/
theorem Conduct.observe_eq
    {session : Session}
    {result : Except Failure (Location × List Reading)}
    (hConduct :
      Conduct source site primitive session.handle s calls
        result s₁)
    (now : Instant)
    (permanent : Bool) :
    observe source site now primitive permanent (s, session) =
      conclude session primitive now permanent s₁ result := by
  unfold observe
  cases hConduct with
  | unnamed hNames =>
      simp only [Action.bind_error hNames.eventNames_eq]
      rw [conclude, Failure.left_of_not_halts _ hNames.not_halts]
  | unlocated hNames hUnit =>
      simp only [Action.bind_ok hNames.eventNames_eq,
        Action.bind_error hUnit.locate_eq]
      rw [conclude, Failure.left_of_not_halts _ hUnit.not_halts]
  | refused hNames hUnit hCall =>
      simp only [Action.bind_ok hNames.eventNames_eq,
        Action.bind_ok hUnit.locate_eq]
      simp only [pure, EStateM.pure, hCall]
      rw [conclude, Failure.left_of_not_halts _ rfl]
      rfl
  | miscounted hNames hUnit hCall hCount =>
      simp only [Action.bind_ok hNames.eventNames_eq,
        Action.bind_ok hUnit.locate_eq]
      simp only [pure, EStateM.pure, hCall, if_neg hCount]
      rw [conclude, Failure.left_miscounted]
      rfl
  | observed hNames hUnit hCall hCount =>
      simp only [Action.bind_ok hNames.eventNames_eq,
        Action.bind_ok hUnit.locate_eq]
      simp only [pure, EStateM.pure, hCall, if_pos hCount]
      rfl

------------------------------------------------------------
-- Recorded Calls
------------------------------------------------------------

theorem Named.recorded
    {codes : List EventCode}
    {names : List String}
    (hNamed : Named source codes names s s₁)
    (calls : List Call) :
    Named source.recorded codes names (s, calls)
      (s₁, calls ++ codes.map .eventName) := by
  induction hNamed generalizing calls with
  | nil s => simpa using Named.nil (s, calls)
  | cons hName _ ih =>
      rw [List.map_cons, List.append_cons]
      exact .cons (Action.noting_ok hName) (ih _)

theorem Naming.recorded
    {result : Except Failure (List String)}
    {made : List Call}
    (hNaming : Naming source handle s made result s₁)
    (calls : List Call) :
    Naming source.recorded handle (s, calls) made result
      (s₁, calls ++ made) := by
  cases hNaming with
  | unlisted hList => exact .unlisted (Action.noting_error hList)
  | eventless hList => exact .eventless (Action.noting_ok hList)
  | @nameless front back code _ _ s₁ _ _ hList hFront hName =>
      have hCodes :
          source.recorded.listEvents handle (s, calls) =
            .ok (front ++ code :: back)
              (s₁, calls ++ [.listEvents handle]) :=
        Action.noting_ok hList
      simpa using
        Naming.nameless hCodes (hFront.recorded _)
          (Action.noting_error hName)
  | named hList hSome hNames =>
      rw [List.append_cons]
      exact .named (Action.noting_ok hList) hSome
        (hNames.recorded _)

theorem Locating.recorded
    {result : Except Failure Location}
    {made : List Call}
    (hLocating : Locating source site handle s made result s₁)
    (calls : List Call) :
    Locating source.recorded site handle (s, calls) made result
      (s₁, calls ++ made) := by
  cases hLocating with
  | unresolved hUnit =>
      exact .unresolved (Action.noting_error hUnit)
  | threadless hUnit hNode =>
      exact .threadless (Action.noting_ok hUnit) hNode
  | located hUnit hNode =>
      exact .located (Action.noting_ok hUnit) hNode

theorem Primitive.call_recorded
    (primitive : Primitive)
    (source : CounterSource σ)
    (handle : EventSet) :
    primitive.call source.recorded handle =
      noting (primitive.toCall handle)
        (primitive.call source handle) := by
  cases primitive <;> rfl

theorem Primitive.recorded_ok
    {values : List Count}
    (hCall : primitive.call source handle s = .ok values s₁)
    (calls : List Call) :
    primitive.call source.recorded handle (s, calls) =
      .ok values (s₁, calls ++ [primitive.toCall handle]) := by
  rw [call_recorded]
  exact Action.noting_ok hCall

theorem Primitive.recorded_error
    {cause : BackendError}
    (hCall : primitive.call source handle s = .error cause s₁)
    (calls : List Call) :
    primitive.call source.recorded handle (s, calls) =
      .error cause
        (s₁, calls ++ [primitive.toCall handle]) := by
  rw [call_recorded]
  exact Action.noting_error hCall

/- A source that notes its calls notes those of the conduct. -/
theorem Conduct.recorded
    {result : Except Failure (Location × List Reading)}
    {made : List Call}
    (hConduct :
      Conduct source site primitive handle s made result s₁)
    (calls : List Call) :
    Conduct source.recorded site primitive handle (s, calls)
      made result (s₁, calls ++ made) := by
  -- The log is bracketed to the left, as it is written.
  cases hConduct with
  | unnamed hNames => exact .unnamed (hNames.recorded calls)
  | unlocated hNames hUnit =>
      rw [← List.append_assoc]
      exact .unlocated (hNames.recorded calls) (hUnit.recorded _)
  | refused hNames hUnit hCall =>
      rw [← List.append_assoc, ← List.append_assoc]
      exact .refused (hNames.recorded calls) (hUnit.recorded _)
        (Primitive.recorded_error hCall _)
  | miscounted hNames hUnit hCall hCount =>
      rw [← List.append_assoc, ← List.append_assoc]
      exact .miscounted (hNames.recorded calls)
        (hUnit.recorded _) (Primitive.recorded_ok hCall _) hCount
  | observed hNames hUnit hCall hCount =>
      rw [← List.append_assoc, ← List.append_assoc]
      exact .observed (hNames.recorded calls)
        (hUnit.recorded _) (Primitive.recorded_ok hCall _) hCount

/-
  Whatever a source answers, an observation makes the calls of
  its conduct in their order and ends with the failure of the
  conduct, if there is one. That failure is reported with its
  own status. It keeps the session, but for the running flag of
  one whose stop was carried out.
-/
theorem observe_calls_in_order
    (source : CounterSource σ)
    (site : Site)
    (primitive : Primitive)
    (session : Session)
    (now : Instant)
    (permanent : Bool)
    (s : σ)
    (calls : List Call) :
    ∃ made result s₁,
      Conduct source site primitive session.handle s made result
          s₁ ∧
        observe source site now primitive permanent
            (s, session) =
          conclude session primitive now permanent s₁ result ∧
        observe source.recorded site now primitive permanent
            ((s, calls), session) =
          conclude session primitive now permanent
            (s₁, calls ++ made) result ∧
        ∀ failure, result = .error failure →
          (failure.error session.handle).status =
              failure.status ∧
            (failure.error session.handle).category =
              failure.category ∧
            (failure.left session).handle = session.handle ∧
            (failure.left session).ledger = session.ledger ∧
            (failure.left session).running =
              (session.running && !failure.halts) := by
  rcases exists_conduct source site primitive session.handle s
    with ⟨made, result, s₁, hConduct⟩
  have hRecorded := hConduct.recorded calls
  refine ⟨made, result, s₁, hConduct, hConduct.observe_eq ..,
    hRecorded.observe_eq .., ?_⟩
  intro failure hFailure
  exact ⟨failure.status_error _, failure.category_error _,
    rfl, rfl, rfl⟩

/-
  A stop that returns one value for two events. It is called
  last, and it shows in the running flag.
-/
theorem observe_calls_in_order_short_stop :
    let script : Script :=
      { events := [some "TOT_INS", some "TOT_CYC"]
        values := [7] }
    let source : CounterSource (Unit × List Call) :=
      script.source fun _ => .ok 0
    let site : Site := ⟨.uniform 1 1 1, 0⟩
    let session := fresh 1
    ∃ made result s₁,
      Conduct source site .stop 1 ((), []) made result s₁ ∧
        observe source.recorded site 5 .stop true
            ((((), []), []), session) =
          conclude session .stop 5 true (s₁, made) result ∧
        made = [.listEvents 1, .eventName 0, .eventName 1,
          .currentUnit 1, .stop 1] ∧
        ∃ failure, result = .error failure ∧
          failure.status = .other ∧
          failure.halts = true := by
  intro script source site session
  rcases observe_calls_in_order source site .stop session 5 true
      ((), []) [] with
    ⟨made, result, s₁, hConduct, -, hObserve, hFailure⟩
  have hRun :
      ∃ log state,
        observe source.recorded site 5 .stop true
            ((((), []), []), session) =
          .error (.backend (wrongCount .stop 1 2))
            ((state, log), { session with running := false }) ∧
        log = [.listEvents 1, .eventName 0, .eventName 1,
          .currentUnit 1, .stop 1] :=
    ⟨_, _, rfl, rfl⟩
  rcases hRun with ⟨log, state, hRun, hLog⟩
  rw [hObserve] at hRun
  cases result with
  | ok observed => contradiction
  | error failure =>
      rcases hFailure failure rfl with
        ⟨hStatus, -, -, -, hRunning⟩
      injection hRun with hError hState
      have hMade : made = log := congrArg (·.1.2) hState
      have hHalts :
          (failure.left session).running = false :=
        congrArg (·.2.running) hState
      rw [hError] at hStatus
      refine ⟨made, _, s₁, hConduct, hObserve, hMade.trans hLog,
        failure, rfl, hStatus.symm, ?_⟩
      rw [hRunning] at hHalts
      simpa [session, fresh] using hHalts

end Session

end CoreTally
