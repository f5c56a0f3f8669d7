import CoreTally.Proofs.Session.Observation
import CoreTally.Proofs.Counter.Tallies

/-
  An operation on one event set sees nothing but the catalog and
  that event set, and changes nothing but that event set. What
  an operation sees and what it leaves alone is its scope, and
  operations within a scope can be carried out one after the
  other without leaving it.

  Key definitions include:
    * `Scope`
    * `Scope.Confines`
    * `CounterSource.ConfinedTo`
    * `Simulated.scope`

  Key theorems include:
    * `Scope.Confines.endings`
    * `Scope.Confines.bind`
    * `Simulated.confines_onSet`
    * `Simulated.confined_source`
-/

namespace CoreTally

/- The answer of an action, and the state that it leaves. -/
def Action.attempt
    {ε σ α : Type}
    (action : Action ε σ α)
    (s : σ) : Except ε α × σ :=
  match action s with
  | .ok answer s => (.ok answer, s)
  | .error e s => (.error e, s)

------------------------------------------------------------
-- Scopes
------------------------------------------------------------

/-
  A part of the states: states may be the same as far as it
  reaches, and a change may spare all that is outside of it.
-/
structure Scope (σ : Type) where
  same : σ → σ → Prop
  spared : σ → σ → Prop
  spared_refl : ∀ s, spared s s
  spared_trans :
    ∀ {s s₁ s₂}, spared s s₁ → spared s₁ s₂ → spared s s₂

namespace Scope

variable {ε δ σ α β : Type}

/-
  Two endings that can not be told apart within a scope, the
  first one of an action that began in a given state.
-/
inductive Alike
    (scope : Scope σ)
    (s : σ) :
    EStateM.Result ε σ α → EStateM.Result ε σ α → Prop
| ok
    (answer : α)
    {s₁ t₁ : σ}
    (hSame : scope.same s₁ t₁)
    (hSpared : scope.spared s s₁) :
    Alike scope s (.ok answer s₁) (.ok answer t₁)
| error
    (e : ε)
    {s₁ t₁ : σ}
    (hSame : scope.same s₁ t₁)
    (hSpared : scope.spared s s₁) :
    Alike scope s (.error e s₁) (.error e t₁)

/- An action that stays within a scope, if it fails as well. -/
def Confines
    (scope : Scope σ)
    (action : Action ε σ α) : Prop :=
  ∀ s t, scope.same s t → scope.Alike s (action s) (action t)

variable {scope : Scope σ}

/- What was spared before the start of an action is spared. -/
theorem Alike.after
    {s s₁ : σ}
    (hSpared : scope.spared s s₁)
    {left right : EStateM.Result ε σ α}
    (hAlike : scope.Alike s₁ left right) :
    scope.Alike s left right := by
  cases hAlike with
  | ok answer hSame hMore =>
      exact .ok answer hSame (scope.spared_trans hSpared hMore)
  | error e hSame hMore =>
      exact .error e hSame (scope.spared_trans hSpared hMore)

/- Both ways in which an action can end, with the states. -/
theorem Confines.endings
    {action : Action ε σ α}
    (hAction : scope.Confines action)
    {s t : σ}
    (hSame : scope.same s t) :
    (∃ answer s₁ t₁,
        action s = .ok answer s₁ ∧ action t = .ok answer t₁ ∧
          scope.same s₁ t₁ ∧ scope.spared s s₁) ∨
      ∃ e s₁ t₁,
        action s = .error e s₁ ∧ action t = .error e t₁ ∧
          scope.same s₁ t₁ ∧ scope.spared s s₁ := by
  have hAlike := hAction s t hSame
  revert hAlike
  generalize action s = left
  generalize action t = right
  intro hAlike
  cases hAlike with
  | ok answer hSame hSpared =>
      exact .inl ⟨answer, _, _, rfl, rfl, hSame, hSpared⟩
  | error e hSame hSpared =>
      exact .inr ⟨e, _, _, rfl, rfl, hSame, hSpared⟩

theorem confines_pure
    (answer : α) :
    scope.Confines (pure answer : Action ε σ α) :=
  fun s _ hSame => .ok answer hSame (scope.spared_refl s)

theorem confines_throw
    (e : ε) :
    scope.Confines (throw e : Action ε σ α) :=
  fun s _ hSame => .error e hSame (scope.spared_refl s)

theorem confines_answer
    (value : Except ε α) :
    scope.Confines
      (CounterSource.answer value : Action ε σ α) := by
  cases value with
  | error e => exact confines_throw e
  | ok answer => exact confines_pure answer

theorem Confines.adaptExcept
    {action : Action ε σ α}
    (hAction : scope.Confines action)
    (adapt : ε → δ) :
    scope.Confines (action.adaptExcept adapt : Action δ σ α) := by
  intro s t hSame
  rcases hAction.endings hSame with
    ⟨answer, s₁, t₁, hLeft, hRight, hSame, hSpared⟩ |
    ⟨e, s₁, t₁, hLeft, hRight, hSame, hSpared⟩
  · rw [Action.adaptExcept_ok hLeft, Action.adaptExcept_ok hRight]
    exact .ok answer hSame hSpared
  · rw [Action.adaptExcept_error hLeft,
      Action.adaptExcept_error hRight]
    exact .error (adapt e) hSame hSpared

/- What follows an action starts from what it has left. -/
theorem Confines.bind
    {action : Action ε σ α}
    (hAction : scope.Confines action)
    {next : α → Action ε σ β}
    (hNext : ∀ answer, scope.Confines (next answer)) :
    scope.Confines (action >>= next) := by
  intro s t hSame
  rcases hAction.endings hSame with
    ⟨answer, s₁, t₁, hLeft, hRight, hSame, hSpared⟩ |
    ⟨e, s₁, t₁, hLeft, hRight, hSame, hSpared⟩
  · rw [Action.bind_ok hLeft, Action.bind_ok hRight]
    exact (hNext answer s₁ t₁ hSame).after hSpared
  · rw [Action.bind_error hLeft, Action.bind_error hRight]
    exact .error e hSame hSpared

/- Actions that confine themselves also do so when attempted. -/
theorem Confines.attempt
    {action : Action ε σ α}
    (hAction : scope.Confines action)
    {s t : σ}
    (hSame : scope.same s t) :
    (action.attempt s).1 = (action.attempt t).1 ∧
      scope.same (action.attempt s).2 (action.attempt t).2 ∧
        scope.spared s (action.attempt s).2 := by
  rcases hAction.endings hSame with
    ⟨answer, s₁, t₁, hLeft, hRight, hSame, hSpared⟩ |
    ⟨e, s₁, t₁, hLeft, hRight, hSame, hSpared⟩
  · simp only [Action.attempt, hLeft, hRight]
    exact ⟨trivial, hSame, hSpared⟩
  · simp only [Action.attempt, hLeft, hRight]
    exact ⟨trivial, hSame, hSpared⟩

theorem Confines.mapM
    {ask : α → Action ε σ β}
    (hAsk : ∀ item, scope.Confines (ask item))
    (items : List α) :
    scope.Confines (items.mapM ask) := by
  induction items with
  | nil => exact confines_pure []
  | cons item items ih =>
      rw [List.mapM_cons]
      exact (hAsk item).bind fun answer =>
        ih.bind fun answers => confines_pure (answer :: answers)

end Scope

open CoreTally.Scope (confines_answer)

/- The operations on one event set stay within a scope. -/
structure CounterSource.ConfinedTo
    {σ : Type}
    (source : CounterSource σ)
    (scope : Scope σ)
    (handle : EventSet) : Prop where
  listEvents : scope.Confines (source.listEvents handle)
  eventName : ∀ code, scope.Confines (source.eventName code)
  currentUnit : scope.Confines (source.currentUnit handle)
  start : scope.Confines (source.start handle)
  reset : scope.Confines (source.reset handle)
  call :
    ∀ primitive : Session.Primitive,
      scope.Confines (primitive.call source handle)

------------------------------------------------------------
-- Simulated Sources
------------------------------------------------------------

namespace Simulated

/-
  One event set of a simulated source. The catalog is seen from
  everywhere and belongs to nobody.
-/
def scope (handle : EventSet) : Scope Simulated where
  same s t :=
    s.catalog = t.catalog ∧
      s.sets.find? handle = t.sets.find? handle
  spared s t :=
    s.catalog = t.catalog ∧
      ∀ other, other ≠ handle →
        s.sets.find? other = t.sets.find? other
  spared_refl _ := ⟨rfl, fun _ _ => rfl⟩
  spared_trans h₁ h₂ :=
    ⟨h₁.1.trans h₂.1, fun other hOther =>
      (h₁.2 other hOther).trans (h₂.2 other hOther)⟩

/- A change within one scope is not seen from another one. -/
theorem same_of_spared
    {handle other : EventSet}
    (hOther : other ≠ handle)
    {s s₁ t : Simulated}
    (hSpared : (scope handle).spared s s₁)
    (hSame : (scope other).same s t) :
    (scope other).same s₁ t :=
  ⟨hSpared.1.symm.trans hSame.1,
    (hSpared.2 other hOther).symm.trans hSame.2⟩

variable {s t : Simulated}
variable {handle : EventSet}

theorem same_putSet
    (hSame : (scope handle).same s t)
    (set : SimulatedSet) :
    (scope handle).same (s.putSet handle set)
      (t.putSet handle set) :=
  ⟨hSame.1, by rw [find?_putSet, find?_putSet]⟩

theorem spared_putSet
    (s : Simulated)
    (handle : EventSet)
    (set : SimulatedSet) :
    (scope handle).spared s (s.putSet handle set) := by
  refine ⟨rfl, fun other hOther => ?_⟩
  rw [putSet, OrderedMap.find?_insert, if_neg hOther]

theorem event?_of_same
    (hSame : (scope handle).same s t) :
    s.event? = t.event? := by
  funext code
  rw [event?, event?, hSame.1]

theorem confines_askSet
    {α : Type}
    (handle : EventSet)
    (ask : SimulatedSet → α) :
    (scope handle).Confines (askSet handle ask) := by
  intro s t hSame
  have hSpared := (scope handle).spared_refl s
  simp only [askSet, hSame.2]
  cases t.sets.find? handle with
  | none => exact .error _ hSame hSpared
  | some set => exact .ok _ hSame hSpared

theorem confines_onSet
    {α : Type}
    (handle : EventSet)
    (operate :
      SimulatedSet → Except BackendError (α × SimulatedSet)) :
    (scope handle).Confines (onSet handle operate) := by
  intro s t hSame
  have hSpared := (scope handle).spared_refl s
  simp only [onSet, hSame.2]
  cases t.sets.find? handle with
  | none => exact .error _ hSame hSpared
  | some old =>
      cases hOperate : operate old with
      | error e =>
          simpa only [hOperate] using .error e hSame hSpared
      | ok result =>
          simpa only [hOperate] using
            .ok result.1 (same_putSet hSame result.2)
              (spared_putSet s handle result.2)

theorem confines_eventName
    (handle : EventSet)
    (code : EventCode) :
    (scope handle).Confines (eventName code) := by
  intro s t hSame
  have hSpared := (scope handle).spared_refl s
  simp only [eventName, event?_of_same hSame]
  cases t.event? code with
  | none => exact .error _ hSame hSpared
  | some event => exact .ok _ hSame hSpared

theorem confines_addRawEvent
    (handle : EventSet)
    (code : EventCode) :
    (scope handle).Confines (addRawEvent handle code) :=
  confines_onSet handle _

theorem confines_addEvent
    (handle : EventSet)
    (code : EventCode) :
    (scope handle).Confines (addEvent handle code) := by
  intro s t hSame
  have hSpared := (scope handle).spared_refl s
  simp only [addEvent, event?_of_same hSame]
  cases t.event? code with
  | none => exact .error _ hSame hSpared
  | some event => exact confines_addRawEvent handle code s t hSame

theorem confines_setBinding
    (handle : EventSet)
    (binding : UnitBinding) :
    (scope handle).Confines (setBinding handle binding) :=
  confines_onSet handle _

/- Work counts by the weights, which the catalog fixes. -/
theorem confines_execute
    (handle : EventSet)
    (work : UInt64) :
    (scope handle).Confines (execute handle work) := by
  intro s t hSame
  have hSpared := (scope handle).spared_refl s
  have hWeight := weight_congr (event?_of_same hSame)
  simp only [execute, hWeight]
  cases Count.ofWork? work with
  | none => exact .error _ hSame hSpared
  | some count => exact confines_onSet handle _ s t hSame

theorem confines_take
    (handle : EventSet)
    (change : SimulatedSet → SimulatedSet) :
    (scope handle).Confines (take handle change) :=
  confines_onSet handle _

/- However units are found, a set is all that its calls touch. -/
theorem confined_source
    (resolve : UnitBinding → Except Error UnitId)
    (handle : EventSet) :
    (source resolve).ConfinedTo (scope handle) handle where
  listEvents := confines_askSet handle _
  eventName := confines_eventName handle
  currentUnit :=
    ((confines_askSet handle _).adaptExcept _).bind
      fun _ => confines_answer _
  start := confines_onSet handle _
  reset := confines_onSet handle fun old => .ok ((), old.zeroed)
  call := by
    intro primitive
    cases primitive <;> exact confines_take handle _

end Simulated

end CoreTally
