import CoreTally.Proofs.Counter.Operations
import Mathlib.Data.List.Induction

/-
  What the log of a simulated source tells about its event sets.
  The log holds the operations that were carried out, in their
  order. An event of an event set has counted the work that was
  done while the event set was running, since the counters were
  last zeroed, and at the weights of that time.

  The definitions of this file look at the log alone and know
  nothing of the states that a source goes through.

  Key definitions include:
    * `Simulated.Done`
    * `Simulated.weightIn`
    * `Simulated.runningIn`
    * `Simulated.counted`
    * `Simulated.countersIn`
    * `Simulated.setIn`
    * `Simulated.run`

  Key theorems include:
    * `Simulated.counted_concat`
    * `Simulated.setIn_concat`
    * `Simulated.setIn_filter_concerns`
    * `Simulated.Mirrors.of_carried`
    * `Simulated.Operation.perform_cases`
    * `Simulated.kept_by_steps`
    * `Simulated.event_sets_follow_log`
-/

namespace CoreTally

namespace Simulated

------------------------------------------------------------
-- Logs
------------------------------------------------------------

/- An operation that was carried out, with its answer. -/
structure Done where
  operation : Operation
  answer : Answer
deriving DecidableEq, Repr

/- The event set that an operation names. -/
def Operation.set? : Operation → Option EventSet
| .defineEvent .. | .createEventSet => none
| .addEvent set _ | .addNamedEvent set _ | .addRawEvent set _
| .setBinding set _ | .migrate set _ | .execute set _
| .start set | .read set | .accumulate set | .stop set
| .reset set => some set

/-
  An operation is carried out, or it fails and changes nothing.
  What fails names an event set.
-/
theorem Operation.perform_cases
    (operation : Operation)
    (s : Simulated) :
    (∃ answer s₁,
        operation.perform s = .ok answer s₁ ∧
          operation.Carried s answer s₁) ∨
      ∃ e,
        operation.perform s = .error e s ∧
          operation.set?.isSome = true := by
  cases hPerform : operation.perform s with
  | ok answer s₁ =>
      exact .inl
        ⟨answer, s₁, rfl, operation.carried_of_perform hPerform⟩
  | error e s₁ =>
      rw [operation.retreats_perform _ _ _ hPerform]
      refine .inr ⟨e, rfl, ?_⟩
      cases operation <;> first | rfl | contradiction

namespace Done

/- The weight that an event is given. -/
def defines
    (code : EventCode)
    (done : Done) : Option Count :=
  match done.operation with
  | .defineEvent defined _ weight =>
      if defined = code then some weight else none
  | _ => none

variable (handle : EventSet)

/- The event set is created, in place of an older one. -/
def creates (done : Done) : Bool :=
  match done.operation, done.answer with
  | .createEventSet, .created set => set == handle
  | _, _ => false

/- The event that is added to the event set. -/
def adds (done : Done) : Option EventCode :=
  if done.operation.set? = some handle then
    match done.operation, done.answer with
    | .addEvent _ code, _ => some code
    | .addRawEvent _ code, _ => some code
    | .addNamedEvent _ _, .code code => some code
    | _, _ => none
  else
    none

/- The counters of the event set are zeroed. -/
def zeroes (done : Done) : Bool :=
  match done.operation with
  | .start set | .accumulate set | .reset set => set == handle
  | _ => false

/- The work that is done under the event set. -/
def work? (done : Done) : Option Count :=
  match done.operation with
  | .execute set work =>
      if set = handle then Count.ofWork? work else none
  | _ => none

/- The event set runs or stands from now on. -/
def switches (done : Done) : Option Bool :=
  if done.creates handle then
    some false
  else if done.operation.set? = some handle then
    match done.operation with
    | .start _ => some true
    | .stop _ => some false
    | _ => none
  else
    none

/- What the event set counts on from now on. -/
def binds (done : Done) : Option UnitBinding :=
  if done.creates handle then
    some (.cpu 0)
  else if done.operation.set? = some handle then
    match done.operation with
    | .setBinding _ binding => some binding
    | .migrate _ unit => some (.cpu unit)
    | _ => none
  else
    none

/- The event set or the known events are concerned. -/
def concerns (done : Done) : Bool :=
  done.creates handle ||
    done.operation.set? == some handle ||
      match done.operation with
      | .defineEvent .. => true
      | _ => false

end Done

------------------------------------------------------------
-- Reading the Log
------------------------------------------------------------

section Lasting

variable {α β : Type}
variable (change : α → Option β)

/- What was changed last. -/
def lastOf (items : List α) : Option β :=
  (items.filterMap change).getLast?

theorem filterMap_concat
    (items : List α)
    (item : α) :
    (items ++ [item]).filterMap change =
      items.filterMap change ++ (change item).toList := by
  rw [List.filterMap_append]
  cases hChange : change item <;> simp [hChange]

theorem lastOf_concat
    (items : List α)
    (item : α) :
    lastOf change (items ++ [item]) =
      (change item).or (lastOf change items) := by
  unfold lastOf
  rw [filterMap_concat]
  cases change item <;> simp

/- What changes nothing can be left out. -/
theorem lastOf_filter
    {keep : α → Bool}
    (hKeep : ∀ item, keep item = false → change item = none)
    (items : List α) :
    lastOf change (items.filter keep) = lastOf change items := by
  unfold lastOf
  rw [List.filterMap_filter]
  congr 2
  funext item
  cases hItem : keep item with
  | true => rfl
  | false => simp [hKeep item hItem]

end Lasting

/- The weight of an event at the end of a log. -/
def weightIn (log : List Done) (code : EventCode) : Count :=
  (lastOf (Done.defines code) log).getD 1

variable (handle : EventSet)

/- The event set is running at the end of a log. -/
def runningIn (log : List Done) : Bool :=
  (lastOf (Done.switches handle) log).getD false

/- What the event set counts on at the end of a log. -/
def bindingIn (log : List Done) : UnitBinding :=
  (lastOf (Done.binds handle) log).getD (.cpu 0)

/-
  What an operation counts for an event after a log: work that
  is done while the event set is running, at the weight that
  the event has by then.
-/
def share
    (code : EventCode)
    (past : List Done)
    (done : Done) : List Count :=
  match done.work? handle with
  | none => []
  | some work =>
      if runningIn handle past then
        [work.times (weightIn past code)]
      else
        []

/-
  What the operations after a log have counted for an event,
  apart from what was counted before the counters were zeroed.
-/
def counted
    (code : EventCode) : List Done → List Done → List Count
| _, [] => []
| past, done :: rest =>
    let later := counted code (past ++ [done]) rest
    if rest.any (Done.zeroes handle) then
      later
    else
      share handle code past done ++ later

/-
  The counters of the events that are added after a log, as long
  as the event set is not created anew. Each of them begins to
  count when its event has been added.
-/
def countersFrom : List Done → List Done → List Counter
| _, [] => []
| past, done :: rest =>
    let later := countersFrom (past ++ [done]) rest
    if rest.any (Done.creates handle) then
      later
    else
      match done.adds handle with
      | none => later
      | some code =>
          ⟨code,
            Count.total
              (counted handle code (past ++ [done]) rest)⟩ :: later

/- The counters of the event set at the end of a log. -/
def countersIn (log : List Done) : List Counter :=
  countersFrom handle [] log

/- The event set at the end of a log, if it was ever created. -/
def setIn (log : List Done) : Option SimulatedSet :=
  if log.any (Done.creates handle) then
    some
      { counters := countersIn handle log
        running := runningIn handle log
        binding := bindingIn handle log }
  else
    none

------------------------------------------------------------
-- One More Operation
------------------------------------------------------------

variable {handle : EventSet}
variable {code : EventCode}
variable (done : Done)

theorem share_of_zeroes
    {done : Done}
    (hZeroes : done.zeroes handle = true)
    (past : List Done) :
    share handle code past done = [] := by
  have hWork : done.work? handle = none := by
    unfold Done.zeroes at hZeroes
    unfold Done.work?
    split at hZeroes <;> simp_all
  rw [share, hWork]

/- An operation zeroes what was counted, or adds its own share. -/
theorem counted_concat
    (past rest : List Done) :
    counted handle code past (rest ++ [done]) =
      if done.zeroes handle then
        []
      else
        counted handle code past rest ++
          share handle code (past ++ rest) done := by
  induction rest generalizing past with
  | nil =>
      cases hZeroes : done.zeroes handle with
      | true => simp [counted, share_of_zeroes hZeroes]
      | false => simp [counted]
  | cons first rest ih =>
      rw [List.cons_append, counted, ih, List.any_append]
      cases hZeroes : done.zeroes handle with
      | true => simp [hZeroes]
      | false =>
          simp only [counted, List.any_cons, List.any_nil, hZeroes,
            Bool.or_false, Bool.false_eq_true, if_false,
            List.append_assoc, List.singleton_append]
          split <;> simp

/- A counter after one more operation. -/
def amendCounter
    (handle : EventSet)
    (past : List Done)
    (done : Done)
    (counter : Counter) : Counter :=
  { counter with
    count :=
      if done.zeroes handle then
        0
      else
        (share handle counter.code past done).foldl Count.plus
          counter.count }

/- An event set after one more operation that does not create it. -/
def amendSet
    (handle : EventSet)
    (past : List Done)
    (done : Done)
    (set : SimulatedSet) : SimulatedSet where
  counters :=
    set.counters.map (amendCounter handle past done) ++
      (done.adds handle).toList.map fun code => ⟨code, 0⟩
  running := (done.switches handle).getD set.running
  binding := (done.binds handle).getD set.binding

theorem total_counted_concat
    (past rest : List Done) :
    Count.total (counted handle code past (rest ++ [done])) =
      (amendCounter handle (past ++ rest) done
        ⟨code, Count.total (counted handle code past rest)⟩).count := by
  rw [counted_concat, amendCounter]
  split
  · rfl
  · rw [Count.total, List.foldl_append]
    rfl

theorem adds_of_creates
    {done : Done}
    (hCreates : done.creates handle = true) :
    done.adds handle = none := by
  rcases done with ⟨operation, answer⟩
  cases operation <;> simp_all [Done.creates, Done.adds,
    Operation.set?]

/- What an operation makes of the counters that came before it. -/
theorem countersFrom_concat
    (past rest : List Done) :
    countersFrom handle past (rest ++ [done]) =
      if done.creates handle then
        []
      else
        (countersFrom handle past rest).map
            (amendCounter handle (past ++ rest) done) ++
          (done.adds handle).toList.map fun code => ⟨code, 0⟩ := by
  induction rest generalizing past with
  | nil =>
      cases hCreates : done.creates handle with
      | true => simp [countersFrom, adds_of_creates hCreates]
      | false =>
          cases hAdds : done.adds handle with
          | none => simp [countersFrom, hAdds]
          | some code =>
              simp [countersFrom, hAdds, counted, Count.total]
  | cons first rest ih =>
      rw [List.cons_append, countersFrom, countersFrom, ih,
        List.any_append]
      cases hCreates : done.creates handle with
      | true => simp [hCreates]
      | false =>
          simp only [List.any_cons, List.any_nil, hCreates,
            Bool.or_false, Bool.false_eq_true, if_false,
            List.append_assoc, List.singleton_append]
          split
          · rfl
          · cases first.adds handle with
            | none => rfl
            | some code =>
                simp only [List.map_cons, List.cons_append,
                  total_counted_concat, List.append_assoc]
                rfl

/-
  An operation creates the event set, or it changes the counters
  and the state that the event set has by then.
-/
theorem setIn_concat
    (handle : EventSet)
    (log : List Done) :
    setIn handle (log ++ [done]) =
      if done.creates handle then
        some .empty
      else
        (setIn handle log).map (amendSet handle log done) := by
  rw [setIn, List.any_append, List.any_cons, List.any_nil,
    Bool.or_false, countersIn, countersFrom_concat, runningIn,
    bindingIn, lastOf_concat, lastOf_concat, List.nil_append]
  cases hCreates : done.creates handle with
  | true =>
      simp [Done.switches, Done.binds, hCreates,
        SimulatedSet.empty]
  | false =>
      cases hLog : log.any (Done.creates handle) with
      | false => simp [setIn, hLog]
      | true =>
          simp only [setIn, hLog, amendSet, Bool.true_or, if_true,
            Bool.false_eq_true, if_false, Option.map_some,
            countersIn, runningIn, bindingIn]
          congr 2
          · cases done.switches handle <;> rfl
          · cases done.binds handle <;> rfl

/- A counter keeps its count if there is nothing to count. -/
theorem map_amendCounter
    (log : List Done)
    {done : Done}
    (hZeroes : done.zeroes handle = false)
    (hWork : done.work? handle = none)
    (counters : List Counter) :
    counters.map (amendCounter handle log done) = counters := by
  refine (List.map_congr_left ?_).trans (List.map_id counters)
  intro counter _
  simp [amendCounter, share, hZeroes, hWork]

/- Operations on other event sets change nothing. -/
theorem amendSet_of_aloof
    (log : List Done)
    {done : Done}
    (hSet : done.operation.set? ≠ some handle)
    (hCreates : done.creates handle = false)
    (set : SimulatedSet) :
    amendSet handle log done set = set := by
  have hZeroes : done.zeroes handle = false := by
    rcases done with ⟨operation, answer⟩
    cases operation <;> simp_all [Done.zeroes, Operation.set?]
  have hWork : done.work? handle = none := by
    rcases done with ⟨operation, answer⟩
    cases operation <;> simp_all [Done.work?, Operation.set?]
  simp [amendSet, map_amendCounter log hZeroes hWork, Done.adds,
    Done.switches, Done.binds, hSet, hCreates]

theorem setIn_concat_of_aloof
    (log : List Done)
    {done : Done}
    (hSet : done.operation.set? ≠ some handle)
    (hCreates : done.creates handle = false) :
    setIn handle (log ++ [done]) = setIn handle log := by
  have hAmend : amendSet handle log done = id := by
    funext set
    exact amendSet_of_aloof log hSet hCreates set
  rw [setIn_concat, hCreates, if_neg Bool.false_ne_true, hAmend,
    Option.map_id_apply]

/- All zeroed counters look alike, whatever they have counted. -/
theorem map_amendCounter_of_zeroes
    (log : List Done)
    {done : Done}
    (hZeroes : done.zeroes handle = true)
    (set : SimulatedSet) :
    set.counters.map (amendCounter handle log done) =
      set.zeroed.counters := by
  simp [amendCounter, hZeroes, SimulatedSet.zeroed]

------------------------------------------------------------
-- Logs and States
------------------------------------------------------------

/-
  A source is in the state that a log tells: events have their
  weights, and event sets are as they are told to be.
-/
structure Mirrors
    (s : Simulated)
    (log : List Done) : Prop where
  weights : s.weight = weightIn log
  sets : ∀ handle, s.sets.find? handle = setIn handle log

theorem mirrors_empty : empty.Mirrors [] where
  weights := rfl
  sets _ := rfl

variable {s s₁ : Simulated}
variable {log : List Done}
variable {operation : Operation}
variable {answer : Answer}

/- A new event takes the place of those with the same code. -/
theorem find?_replaced
    (catalog : List CatalogEvent)
    (event : CatalogEvent)
    (code : EventCode) :
    (catalog.filter (·.code != event.code) ++ [event]).find?
        (·.code == code) =
      if event.code = code then
        some event
      else
        catalog.find? (·.code == code) := by
  rw [List.find?_append, List.find?_filter]
  by_cases hSame : event.code = code
  · subst hSame
    have hNone :
        catalog.find?
            (fun old =>
              decide ((old.code != event.code) = true ∧
                (old.code == event.code) = true)) =
          none := by
      simp
    rw [hNone]
    simp
  · have hOther :
        (fun old : CatalogEvent =>
            decide ((old.code != event.code) = true ∧
              (old.code == code) = true)) =
          fun old => old.code == code := by
      funext old
      by_cases hOld : old.code = code
      · simp [hOld, Ne.symm hSame]
      · simp [hOld]
    rw [hOther, if_neg hSame]
    simp [hSame]

theorem event?_defineEvent
    (s : Simulated)
    (code : EventCode)
    (name : String)
    (weight : Count)
    (other : EventCode) :
    (s.defineEvent code name weight).event? other =
      if code = other then
        some ⟨code, name, weight⟩
      else
        s.event? other :=
  find?_replaced s.catalog ⟨code, name, weight⟩ other

theorem weight_defineEvent
    (s : Simulated)
    (code : EventCode)
    (name : String)
    (weight : Count)
    (other : EventCode) :
    (s.defineEvent code name weight).weight other =
      if code = other then weight else s.weight other := by
  unfold Simulated.weight
  rw [event?_defineEvent]
  by_cases hSame : code = other
  · rw [if_pos hSame, if_pos hSame]
  · rw [if_neg hSame, if_neg hSame]

theorem running_of_setIn
    {set : SimulatedSet}
    (hSet : setIn handle log = some set) :
    set.running = runningIn handle log := by
  unfold setIn at hSet
  split at hSet
  · rw [← Option.some.inj hSet]
  · contradiction

/- Work is counted as the log tells, while the event set runs. -/
theorem map_amendCounter_of_work
    (hWeights : s.weight = weightIn log)
    {set : SimulatedSet}
    (hSet : setIn handle log = some set)
    {done : Done}
    (hZeroes : done.zeroes handle = false)
    {work : Count}
    (hWork : done.work? handle = some work) :
    set.counters.map (amendCounter handle log done) =
      (set.worked s.weight work).counters := by
  unfold SimulatedSet.worked
  rw [running_of_setIn hSet, hWeights]
  split
  · rename_i hRunning
    simp [amendCounter, share, hZeroes, hWork, hRunning]
  · rename_i hRunning
    refine (List.map_congr_left ?_).trans (List.map_id _)
    intro counter _
    simp [amendCounter, share, hZeroes, hWork, hRunning]

section Alters

variable {set altered : SimulatedSet}

/- The log has a counter for each one that is there afterwards. -/
theorem Operation.Alters.counters_eq
    (hAlters : Alters s handle set operation answer altered)
    (hWeights : s.weight = weightIn log)
    (hSet : setIn handle log = some set) :
    altered.counters =
      set.counters.map
          (amendCounter handle log ⟨operation, answer⟩) ++
        (Done.adds handle ⟨operation, answer⟩).toList.map
          fun code => ⟨code, 0⟩ := by
  cases hAlters with
  | addEvent | addNamedEvent | addRawEvent =>
      rw [map_amendCounter log rfl rfl]
      simp [Done.adds, set?, SimulatedSet.push]
  | setBinding | migrate | read | stop =>
      rw [map_amendCounter log rfl rfl]
      simp [Done.adds]
  | start | accumulate | reset =>
      rw [map_amendCounter_of_zeroes log (by simp [Done.zeroes])]
      simp [Done.adds]
  | execute work count hWork =>
      have hShare :
          Done.work? handle ⟨.execute handle work, .done⟩ =
            some count := by
        simp [Done.work?, hWork]
      rw [map_amendCounter_of_work hWeights hSet rfl hShare]
      simp [Done.adds]

/- An operation starts or stops an event set as the log tells. -/
theorem Operation.Alters.running_eq
    (hAlters : Alters s handle set operation answer altered) :
    altered.running =
      (Done.switches handle ⟨operation, answer⟩).getD
        set.running := by
  cases hAlters with
  | execute =>
      unfold SimulatedSet.worked
      split <;> simp [Done.switches, Done.creates, set?]
  | _ =>
      simp [Done.switches, Done.creates, set?, SimulatedSet.push,
        SimulatedSet.zeroed]

/- It is bound as the log tells, too. -/
theorem Operation.Alters.binding_eq
    (hAlters : Alters s handle set operation answer altered) :
    altered.binding =
      (Done.binds handle ⟨operation, answer⟩).getD
        set.binding := by
  cases hAlters with
  | execute =>
      unfold SimulatedSet.worked
      split <;> simp [Done.binds, Done.creates, set?]
  | _ =>
      simp [Done.binds, Done.creates, set?, SimulatedSet.push,
        SimulatedSet.zeroed]

/- What an operation does to an event set is what the log tells. -/
theorem amendSet_of_alters
    (hWeights : s.weight = weightIn log)
    (hSet : setIn handle log = some set)
    (hAlters :
      Operation.Alters s handle set operation answer altered) :
    amendSet handle log ⟨operation, answer⟩ set = altered := by
  rw [amendSet, ← hAlters.counters_eq hWeights hSet,
    ← hAlters.running_eq, ← hAlters.binding_eq]

theorem Operation.Alters.set?_eq
    (hAlters : Alters s handle set operation answer altered) :
    operation.set? = some handle := by
  cases hAlters <;> rfl

theorem Operation.Alters.defines_eq
    (hAlters : Alters s handle set operation answer altered)
    (code : EventCode) :
    Done.defines code ⟨operation, answer⟩ = none := by
  cases hAlters <;> rfl

theorem Operation.Alters.creates_eq
    (hAlters : Alters s handle set operation answer altered)
    (other : EventSet) :
    Done.creates other ⟨operation, answer⟩ = false := by
  cases hAlters <;> rfl

end Alters

/- Only what makes events known changes weights. -/
theorem weightIn_concat
    (log : List Done)
    (done : Done)
    (code : EventCode) :
    weightIn (log ++ [done]) code =
      (done.defines code).getD (weightIn log code) := by
  rw [weightIn, weightIn, lastOf_concat]
  cases done.defines code <;> rfl

theorem Mirrors.setIn_eq
    (hMirrors : s.Mirrors log)
    {set : SimulatedSet}
    (hFind : s.sets.find? handle = some set) :
    setIn handle log = some set := by
  rw [← hMirrors.sets, hFind]

/- The next free handle is that of an event set without events. -/
theorem find?_createEventSet
    (s : Simulated)
    (handle : EventSet) :
    s.createEventSet.1.sets.find? handle =
      if handle = s.nextSet then
        some .empty
      else
        s.sets.find? handle :=
  OrderedMap.find?_insert s.sets s.nextSet handle _

/- The log goes on to tell the state when something is done. -/
theorem Mirrors.of_carried
    (hMirrors : s.Mirrors log)
    (hCarried : operation.Carried s answer s₁) :
    s₁.Mirrors (log ++ [⟨operation, answer⟩]) := by
  cases hCarried with
  | defined code name weight =>
      constructor
      · funext other
        rw [weight_defineEvent, weightIn_concat, hMirrors.weights]
        by_cases hSame : code = other <;>
          simp [Done.defines, hSame]
      · intro handle
        rw [setIn_concat_of_aloof log (by simp [Operation.set?]) rfl]
        exact hMirrors.sets handle
  | created =>
      constructor
      · funext other
        rw [weightIn_concat, ← hMirrors.weights]
        rfl
      · intro handle
        rw [find?_createEventSet]
        by_cases hNew : handle = s.nextSet
        · simp [setIn_concat, Done.creates, hNew]
        · have hCreates :
              Done.creates handle
                  ⟨.createEventSet, .created s.nextSet⟩ =
                false := by
            simpa [Done.creates] using Ne.symm hNew
          rw [if_neg hNew,
            setIn_concat_of_aloof log (by simp [Operation.set?])
              hCreates]
          exact hMirrors.sets handle
  | @altered _ _ handle set altered hFind hAlters =>
      have hSetIn := hMirrors.setIn_eq hFind
      constructor
      · funext other
        rw [weightIn_concat, hAlters.defines_eq,
          ← hMirrors.weights]
        rfl
      · intro other
        rw [putSet, OrderedMap.find?_insert]
        by_cases hOwn : other = handle
        · subst hOwn
          rw [if_pos rfl, setIn_concat, hAlters.creates_eq,
            if_neg Bool.false_ne_true, hSetIn, Option.map_some,
            amendSet_of_alters hMirrors.weights hSetIn hAlters]
        · have hSet : operation.set? ≠ some other := by
            simpa [hAlters.set?_eq] using Ne.symm hOwn
          rw [if_neg hOwn,
            setIn_concat_of_aloof log hSet
              (hAlters.creates_eq other)]
          exact hMirrors.sets other

------------------------------------------------------------
-- Runs
------------------------------------------------------------

/- Carry out an operation, and log it unless it fails. -/
def step
    (reached : Simulated × List Done)
    (operation : Operation) : Simulated × List Done :=
  match operation.perform reached.1 with
  | .ok answer s => (s, reached.2 ++ [⟨operation, answer⟩])
  | .error _ s => (s, reached.2)

/-
  Carry out operations one after another, from a source without
  events and event sets, and keep a log.
-/
def run (operations : List Operation) : Simulated × List Done :=
  operations.foldl step (empty, [])

/-
  An operation is carried out and logged, or it fails and there
  is nothing to log.
-/
theorem step_cases
    (reached : Simulated × List Done)
    (operation : Operation) :
    (∃ answer s,
        operation.Carried reached.1 answer s ∧
          step reached operation =
            (s, reached.2 ++ [⟨operation, answer⟩])) ∨
      operation.set?.isSome = true ∧
        step reached operation = reached := by
  unfold step
  rcases operation.perform_cases reached.1 with
    ⟨answer, s, hPerform, hCarried⟩ | ⟨e, hPerform, hSet⟩
  · rw [hPerform]
    exact .inl ⟨answer, s, hCarried, rfl⟩
  · rw [hPerform]
    exact .inr ⟨hSet, rfl⟩

/-
  What holds of a source and its log holds after any run, if it
  is kept by whatever is carried out.
-/
theorem kept_by_steps
    {holds : Simulated → List Done → Prop}
    (hKept :
      ∀ {s log operation answer s₁},
        holds s log → Operation.Carried s operation answer s₁ →
          holds s₁ (log ++ [⟨operation, answer⟩]))
    (operations : List Operation)
    {reached : Simulated × List Done}
    (hReached : holds reached.1 reached.2) :
    holds (operations.foldl step reached).1
      (operations.foldl step reached).2 := by
  induction operations generalizing reached with
  | nil => exact hReached
  | cons operation operations ih =>
      apply ih
      rcases step_cases reached operation with
        ⟨answer, s, hCarried, hStep⟩ | ⟨-, hStep⟩
      · rw [hStep]
        exact hKept hReached hCarried
      · rw [hStep]
        exact hReached

/- What was carried out tells the state, whatever has failed. -/
theorem mirrors_run
    (operations : List Operation) :
    (run operations).1.Mirrors (run operations).2 :=
  kept_by_steps Mirrors.of_carried operations mirrors_empty

------------------------------------------------------------
-- Own Histories
------------------------------------------------------------

theorem set?_ne_of_not_concerns
    {done : Done}
    (hAloof : done.concerns handle = false) :
    done.operation.set? ≠ some handle := by
  intro hSet
  simp [Done.concerns, hSet] at hAloof

theorem creates_of_not_concerns
    {done : Done}
    (hAloof : done.concerns handle = false) :
    done.creates handle = false := by
  unfold Done.concerns at hAloof
  rw [Bool.or_eq_false_iff, Bool.or_eq_false_iff] at hAloof
  exact hAloof.1.1

theorem runningIn_filter_concerns
    (handle : EventSet)
    (log : List Done) :
    runningIn handle (log.filter (Done.concerns handle)) =
      runningIn handle log := by
  rw [runningIn, lastOf_filter, runningIn]
  intro done hAloof
  simp [Done.switches, creates_of_not_concerns hAloof,
    set?_ne_of_not_concerns hAloof]

theorem weightIn_filter_concerns
    (handle : EventSet)
    (log : List Done) :
    weightIn (log.filter (Done.concerns handle)) = weightIn log := by
  funext code
  rw [weightIn, lastOf_filter, weightIn]
  intro done hAloof
  unfold Done.concerns at hAloof
  unfold Done.defines
  split <;> simp_all

/-
  What is done to other event sets can be left out of the log:
  an event set is told by what is done to it, and by the weights
  of the known events.
-/
theorem setIn_filter_concerns
    (handle : EventSet)
    (log : List Done) :
    setIn handle (log.filter (Done.concerns handle)) =
      setIn handle log := by
  induction log using List.reverseRecOn with
  | nil => rfl
  | append_singleton log done ih =>
      rw [List.filter_append]
      cases hOwn : done.concerns handle with
      | true =>
          have hAmend :
              amendSet handle (log.filter (Done.concerns handle))
                  done =
                amendSet handle log done := by
            funext set
            unfold amendSet amendCounter share
            rw [runningIn_filter_concerns, weightIn_filter_concerns]
          rw [List.filter_cons_of_pos hOwn, List.filter_nil,
            setIn_concat, setIn_concat, ih, hAmend]
      | false =>
          rw [List.filter_cons_of_neg (by simp [hOwn]),
            List.filter_nil, List.append_nil, ih,
            setIn_concat_of_aloof log
              (set?_ne_of_not_concerns hOwn)
              (creates_of_not_concerns hOwn)]

------------------------------------------------------------
-- Answers
------------------------------------------------------------

/-
  What a source answers about an event set is what the log
  tells: each event that was added has one counter, and reads,
  accumulates and stops return the counts in this order.
-/
structure Tells
    (s : Simulated)
    (log : List Done)
    (handle : EventSet)
    (set : SimulatedSet)
    (resolve : UnitBinding → Except Error UnitId) : Prop where
  counters : set.counters = countersIn handle log
  running : set.running = runningIn handle log
  listed :
    (source resolve).listEvents handle s =
      .ok ((countersIn handle log).map Counter.code) s
  taken :
    set.running = true →
      ∀ primitive : Session.Primitive,
        ∃ s₁,
          primitive.call (source resolve) handle s =
            .ok ((countersIn handle log).map Counter.count) s₁
  refused :
    set.running = false →
      ∀ primitive : Session.Primitive,
        primitive.call (source resolve) handle s =
          .error (notRunning handle) s

theorem Mirrors.tells
    (hMirrors : s.Mirrors log)
    {set : SimulatedSet}
    (hFind : s.sets.find? handle = some set)
    (resolve : UnitBinding → Except Error UnitId) :
    s.Tells log handle set resolve := by
  have hSet := hMirrors.setIn_eq hFind
  have hCounters : set.counters = countersIn handle log := by
    unfold setIn at hSet
    split at hSet
    · rw [← Option.some.inj hSet]
    · contradiction
  refine ⟨hCounters, running_of_setIn hSet, ?_, ?_, ?_⟩
  · rw [← hCounters]
    exact askSet_eq hFind SimulatedSet.codes
  · intro hRunning primitive
    rw [← hCounters]
    cases primitive <;> exact ⟨_, take_eq hFind hRunning _⟩
  · intro hStopped primitive
    cases primitive <;> exact take_of_stopped hFind hStopped _

/-
  Whatever is asked of a source and in whatever order, each of
  its event sets is as the log of what was carried out tells,
  and the operations on other event sets do not count.
-/
theorem event_sets_follow_log
    (operations : List Operation)
    (handle : EventSet)
    (resolve : UnitBinding → Except Error UnitId) :
    let s := (run operations).1
    let log := (run operations).2
    s.sets.find? handle = setIn handle log ∧
      setIn handle (log.filter (Done.concerns handle)) =
        setIn handle log ∧
      ∀ set, s.sets.find? handle = some set →
        s.Tells log handle set resolve := by
  intro s log
  have hMirrors := mirrors_run operations
  exact ⟨hMirrors.sets handle, setIn_filter_concerns handle log,
    fun set hFind => hMirrors.tells hFind resolve⟩

/- The common events are made known by operations as well. -/
example :
    (run
      [.defineEvent 0x80000032 "TOT_INS" 2,
        .defineEvent 0x8000003b "TOT_CYC" 3,
        .defineEvent 0x80000000 "L1_DCM" 1,
        .defineEvent 0x8000002e "BR_MSP" 1]).1 =
      withDefaultEvents := by
  decide

/-
  An event set counts an event whose weight changes meanwhile.
  Work that is done before the start or after the stop is lost.
-/
example :
    let operations : List Operation :=
      [.createEventSet, .addRawEvent 1 7, .execute 1 100,
        .start 1, .execute 1 5, .defineEvent 7 "SEVEN" 3,
        .execute 1 10, .stop 1, .execute 1 100]
    countersIn 1 (run operations).2 = [⟨7, 35⟩] := by
  decide +kernel

end Simulated

end CoreTally
