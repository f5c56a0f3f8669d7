import CoreTally.Proofs.Counter.Preparation
import CoreTally.Proofs.Session.Lockstep
import Mathlib.Data.List.Pairwise

/-
  The events that a simulated source knows, and the handles that
  it gives out. Events can be defined again, under codes and
  names that have been in use. The catalog holds the last
  definition of each code, in the order of these definitions. So
  there is one event for a code, and a name that is found leads
  to a code that leads back to the name. Every event set gets a
  handle of its own and is there ever after.

  To ask a source for names, codes, bindings or units leaves it
  as it is, so that runs are made of the other operations.

  Key definitions include:
    * `Simulated.definitions`
    * `Simulated.lastDefined`
    * `Simulated.lasting`
    * `Simulated.runFrom`
    * `Simulated.handles`
    * `Simulated.HandsOut`
    * `Simulated.Recalls`

  Key theorems include:
    * `Simulated.find?_lasting`
    * `Simulated.catalog_runFrom`
    * `Simulated.HandsOut.nodup_handles`
    * `Simulated.catalog_follows_definitions`
-/

namespace CoreTally

namespace Simulated

------------------------------------------------------------
-- Definitions of Events
------------------------------------------------------------

/- The event that an operation defines. -/
def Operation.definition? : Operation → Option CatalogEvent
| .defineEvent code name weight => some ⟨code, name, weight⟩
| _ => none

/- The events that are defined by operations, in order. -/
def definitions (operations : List Operation) :
    List CatalogEvent :=
  operations.filterMap Operation.definition?

/- The last definition of a code. -/
def lastDefined
    (code : EventCode)
    (defined : List CatalogEvent) : Option CatalogEvent :=
  (defined.filter (·.code == code)).getLast?

/- The events whose codes are not defined again later. -/
def lasting (defined : List CatalogEvent) : List CatalogEvent :=
  defined.pwFilter fun event later => event.code ≠ later.code

theorem lasting_cons
    (event : CatalogEvent)
    (defined : List CatalogEvent) :
    lasting (event :: defined) =
      if ∀ later ∈ defined, event.code ≠ later.code then
        event :: lasting defined
      else
        lasting defined := by
  have hSame :
      (∀ later ∈ lasting defined, event.code ≠ later.code) ↔
        ∀ later ∈ defined, event.code ≠ later.code := by
    apply List.forall_mem_pwFilter
    intro one other another hOuter
    by_cases hFirst : one.code = other.code
    · exact .inr (hFirst ▸ hOuter)
    · exact .inl hFirst
  split
  · rename_i hLast
    exact List.pwFilter_cons_of_pos (hSame.mpr hLast)
  · rename_i hAgain
    exact List.pwFilter_cons_of_neg (mt hSame.mp hAgain)

/- A new definition takes the place of older ones of its code. -/
theorem lasting_concat
    (defined : List CatalogEvent)
    (event : CatalogEvent) :
    lasting (defined ++ [event]) =
      (lasting defined).filter (·.code != event.code) ++
        [event] := by
  induction defined with
  | nil => rfl
  | cons first defined ih =>
      rw [List.cons_append, lasting_cons, lasting_cons, ih]
      by_cases hSame : first.code = event.code
      · have hAgain :
            ¬∀ later ∈ defined ++ [event],
              first.code ≠ later.code := by
          intro hLast
          exact hLast event (by simp) hSame
        rw [if_neg hAgain]
        split
        · rw [List.filter_cons_of_neg (by simp [hSame])]
        · rfl
      · have hLast :
            (∀ later ∈ defined ++ [event],
                first.code ≠ later.code) ↔
              ∀ later ∈ defined, first.code ≠ later.code := by
          rw [List.forall_mem_append, List.forall_mem_singleton]
          exact and_iff_left hSame
        rw [if_congr hLast rfl rfl]
        split
        · rw [List.filter_cons_of_pos (by simp [hSame]),
            List.cons_append]
        · rfl

theorem nodup_codes_lasting
    (defined : List CatalogEvent) :
    ((lasting defined).map CatalogEvent.code).Nodup :=
  List.pairwise_map.mpr (List.pairwise_pwFilter defined)

/- Where codes are distinct, all definitions are lasting. -/
theorem lasting_of_nodup
    {defined : List CatalogEvent}
    (hDistinct : (defined.map CatalogEvent.code).Nodup) :
    lasting defined = defined :=
  List.pwFilter_eq_self.mpr (List.pairwise_map.mp hDistinct)

theorem lastDefined_concat
    (code : EventCode)
    (defined : List CatalogEvent)
    (event : CatalogEvent) :
    lastDefined code (defined ++ [event]) =
      if event.code = code then
        some event
      else
        lastDefined code defined := by
  unfold lastDefined
  rw [List.filter_append]
  by_cases hOwn : event.code = code
  · simp [hOwn]
  · simp [hOwn]

/- The lasting event of a code is its last definition. -/
theorem find?_lasting
    (code : EventCode)
    (defined : List CatalogEvent) :
    (lasting defined).find? (·.code == code) =
      lastDefined code defined := by
  induction defined using List.reverseRecOn with
  | nil => rfl
  | append_singleton defined event ih =>
      rw [lasting_concat, find?_replaced, lastDefined_concat, ih]

------------------------------------------------------------
-- Runs
------------------------------------------------------------

variable {s s₁ origin : Simulated}
variable {operation : Operation}
variable {answer : Answer}
variable {handle : EventSet}

/-
  Carry out operations one after another, on a source that was
  made before, and keep a log.
-/
def runFrom
    (origin : Simulated)
    (operations : List Operation) : Simulated × List Done :=
  operations.foldl step (origin, [])

/- Runs go on from where they have got. -/
theorem runFrom_append
    (origin : Simulated)
    (operations later : List Operation) :
    runFrom origin (operations ++ later) =
      later.foldl step (runFrom origin operations) :=
  List.foldl_append

theorem Operation.definition?_of_set?
    (hSet : operation.set?.isSome = true) :
    operation.definition? = none := by
  cases operation with
  | defineEvent => contradiction
  | _ => rfl

/- Catalogs change by definitions only. -/
theorem Operation.Carried.catalog_eq
    (hCarried : operation.Carried s answer s₁)
    {defined : List CatalogEvent}
    (hCatalog : s.catalog = lasting defined) :
    s₁.catalog =
      lasting (defined ++ operation.definition?.toList) := by
  cases hCarried with
  | defined code name weight =>
      change _ = lasting (defined ++ [⟨code, name, weight⟩])
      rw [lasting_concat, ← hCatalog]
      rfl
  | created =>
      change s.catalog = lasting (defined ++ [])
      rw [List.append_nil, hCatalog]
  | altered hFind hAlters =>
      have hSet : operation.set?.isSome = true := by
        rw [hAlters.set?_eq]
        rfl
      rw [Operation.definition?_of_set? hSet]
      change s.catalog = lasting (defined ++ [])
      rw [List.append_nil, hCatalog]

/-
  Whatever is asked of a source and in whatever order, its
  catalog holds the last definition of each code.
-/
theorem catalog_runFrom
    (hDistinct : (origin.catalog.map CatalogEvent.code).Nodup)
    (operations : List Operation) :
    (runFrom origin operations).1.catalog =
      lasting (origin.catalog ++ definitions operations) := by
  induction operations using List.reverseRecOn with
  | nil =>
      change origin.catalog = lasting (origin.catalog ++ [])
      rw [List.append_nil, lasting_of_nodup hDistinct]
  | append_singleton operations operation ih =>
      have hDefinitions :
          definitions (operations ++ [operation]) =
            definitions operations ++
              operation.definition?.toList :=
        filterMap_concat Operation.definition? operations operation
      rw [runFrom_append, List.foldl_cons, List.foldl_nil,
        hDefinitions, ← List.append_assoc]
      rcases step_cases (runFrom origin operations) operation with
        ⟨answer, s, hCarried, hStep⟩ | ⟨hSet, hStep⟩
      · rw [hStep]
        exact hCarried.catalog_eq ih
      · rw [hStep, Operation.definition?_of_set? hSet,
          Option.toList_none, List.append_nil, ih]

------------------------------------------------------------
-- Handles
------------------------------------------------------------

/- The handle of the event set that was created. -/
def Done.created? (done : Done) : Option EventSet :=
  match done.operation, done.answer with
  | .createEventSet, .created set => some set
  | _, _ => none

/- The handles that were given out, in order. -/
def handles (log : List Done) : List EventSet :=
  log.filterMap Done.created?

variable {log : List Done}

theorem Operation.Carried.created?_eq
    (hCarried : operation.Carried s answer s₁) :
    Done.created? ⟨operation, answer⟩ =
      if operation.isCreation then some s.nextSet else none := by
  cases hCarried with
  | defined | created => rfl
  | altered hFind hAlters => cases hAlters <;> rfl

/- Event sets that are there stay there. -/
theorem Operation.Carried.isSome_find?
    (hCarried : operation.Carried s answer s₁)
    (hThere : (s.sets.find? handle).isSome = true) :
    (s₁.sets.find? handle).isSome = true := by
  have hPut :
      ∀ other set,
        ((s.putSet other set).sets.find? handle).isSome =
          true := by
    intro other set
    rw [putSet, OrderedMap.find?_insert]
    split
    · rfl
    · exact hThere
  cases hCarried with
  | defined => exact hThere
  | created => exact hPut s.nextSet .empty
  | altered hFind hAlters => exact hPut _ _

/- The event set that was created is there. -/
theorem Operation.Carried.isSome_find?_of_created
    (hCarried : operation.Carried s answer s₁)
    (hCreated :
      Done.created? ⟨operation, answer⟩ = some handle) :
    (s₁.sets.find? handle).isSome = true := by
  cases hCarried with
  | defined => contradiction
  | altered hFind hAlters => cases hAlters <;> contradiction
  | created =>
      cases hCreated
      change ((s.putSet _ _).sets.find? _).isSome = true
      rw [find?_putSet]
      rfl

/-
  Handles are given out in order, and the event sets that they
  were given to are there.
-/
structure HandsOut
    (s : Simulated)
    (log : List Done) : Prop where
  numbered : s.Numbered (handles log).length
  ordered :
    handles log =
      (List.range (handles log).length).map fun number =>
        Int32.ofNat (number + 1)
  there :
    ∀ handle ∈ handles log,
      (s.sets.find? handle).isSome = true

/- An operation gives out the next handle, or none. -/
theorem HandsOut.of_carried
    (hHandsOut : s.HandsOut log)
    (hCarried : operation.Carried s answer s₁) :
    s₁.HandsOut (log ++ [⟨operation, answer⟩]) := by
  have hNumbered := hHandsOut.numbered.of_carried hCarried
  have hHandles :
      handles (log ++ [⟨operation, answer⟩]) =
        handles log ++
          (Done.created? ⟨operation, answer⟩).toList :=
    filterMap_concat Done.created? log ⟨operation, answer⟩
  have hThere :
      ∀ handle ∈ handles (log ++ [⟨operation, answer⟩]),
        (s₁.sets.find? handle).isSome = true := by
    intro handle hGiven
    rw [hHandles] at hGiven
    rcases List.mem_append.mp hGiven with hOld | hNew
    · exact hCarried.isSome_find? (hHandsOut.there handle hOld)
    · exact hCarried.isSome_find?_of_created
        (Option.mem_toList.mp hNew)
  rw [hCarried.created?_eq] at hHandles
  cases hCreation : operation.isCreation with
  | false =>
      have hSame :
          handles (log ++ [⟨operation, answer⟩]) =
            handles log := by
        simpa [hCreation] using hHandles
      refine ⟨?_, ?_, hThere⟩
      · simpa [hSame, hCreation] using hNumbered
      · rw [hSame]
        exact hHandsOut.ordered
  | true =>
      have hNext :
          handles (log ++ [⟨operation, answer⟩]) =
            handles log ++ [s.nextSet] := by
        simpa [hCreation] using hHandles
      refine ⟨?_, ?_, hThere⟩
      · simpa [hNext, hCreation] using hNumbered
      · rw [hNext, List.length_append, List.length_singleton,
          List.range_succ, List.map_append, ← hHandsOut.ordered,
          List.map_singleton, hHandsOut.numbered.next]

/- No handle is given out twice, while there are enough of them. -/
theorem HandsOut.nodup_handles
    (hHandsOut : s.HandsOut log)
    (hFew : (handles log).length < 2 ^ 31) :
    (handles log).Nodup := by
  rw [hHandsOut.ordered]
  apply List.pairwise_map.mpr
  apply List.pairwise_lt_range.imp_of_mem
  intro number other hNumber hOther hLess
  have hLast := List.mem_range.mp hOther
  exact ofNat_ne_of_lt (by omega) (by omega)

------------------------------------------------------------
-- Answers
------------------------------------------------------------

/- The code that a name leads to leads back to the name. -/
theorem Consistent.eventName_ok
    (hConsistent : s.Consistent)
    {name : String}
    {code : EventCode}
    (hCode : eventCode name s = .ok code s₁) :
    eventName code s₁ = .ok name s₁ := by
  rw [(idle_eventCode name).eq_of_ok hCode]
  unfold eventCode at hCode
  cases hNamed : s.named? name with
  | none => simp [hNamed] at hCode
  | some event =>
      simp only [hNamed] at hCode
      cases hCode
      have hName : event.name = name := by
        simpa using List.find?_some hNamed
      have hEvent : s.event? event.code = some event :=
        hConsistent event (List.mem_of_find?_eq_some hNamed)
      simp only [eventName, hEvent, hName]

/-
  What a source answers after some events have been defined. The
  last definition of a code alone tells its name and its weight.
  Of the lasting events with a name, the first one is found, and
  its code leads back to the name.
-/
structure Recalls
    (s : Simulated)
    (defined : List CatalogEvent) : Prop where
  distinct : (s.catalog.map CatalogEvent.code).Nodup
  known :
    ∀ code event, lastDefined code defined = some event →
      eventName code s = .ok event.name s ∧
        s.weight code = event.weight
  unknown :
    ∀ code, lastDefined code defined = none →
      eventName code s = .error (unknownCode code) s ∧
        s.weight code = 1
  found :
    ∀ name event,
      (lasting defined).find? (·.name == name) = some event →
        eventCode name s = .ok event.code s
  missing :
    ∀ name,
      (lasting defined).find? (·.name == name) = none →
        eventCode name s = .error (unknownName name) s
  back :
    ∀ name code s₁,
      eventCode name s = .ok code s₁ →
        eventName code s₁ = .ok name s₁

theorem recalls_of_catalog
    {defined : List CatalogEvent}
    (hCatalog : s.catalog = lasting defined) :
    s.Recalls defined := by
  have hDistinct : (s.catalog.map CatalogEvent.code).Nodup := by
    rw [hCatalog]
    exact nodup_codes_lasting defined
  have hEvent :
      ∀ code, s.event? code = lastDefined code defined := by
    intro code
    rw [event?, hCatalog, find?_lasting]
  refine ⟨hDistinct, ?_, ?_, ?_, ?_, ?_⟩
  · intro code event hLast
    simp only [eventName, Simulated.weight, hEvent, hLast,
      and_self]
  · intro code hNone
    simp only [eventName, Simulated.weight, hEvent, hNone,
      and_self]
  · intro name event hFirst
    simp only [eventCode, named?, hCatalog, hFirst]
  · intro name hNone
    simp only [eventCode, named?, hCatalog, hNone]
  · intro name code s₁ hCode
    exact (consistent_of_nodup hDistinct).eventName_ok hCode

/-
  A source is made without events or with the common ones, which
  are the first ones to be defined, and then anything is asked of
  it, in any order. No two events of its catalog share a code,
  and what it answers about codes, names and weights is told by
  the last definitions alone. The handles that it has given out
  are distinct, as long as there are enough of them, and their
  event sets are there, whatever is asked later on.
-/
theorem catalog_follows_definitions
    (hOrigin : origin = empty ∨ origin = withDefaultEvents)
    (operations : List Operation) :
    let s := (runFrom origin operations).1
    let log := (runFrom origin operations).2
    s.Recalls (origin.catalog ++ definitions operations) ∧
      ((handles log).length < 2 ^ 31 → (handles log).Nodup) ∧
      ∀ handle ∈ handles log, ∀ later,
        ((runFrom origin (operations ++ later)).1.sets.find?
            handle).isSome =
          true := by
  intro s log
  have hDistinct :
      (origin.catalog.map CatalogEvent.code).Nodup := by
    rcases hOrigin with rfl | rfl <;> decide
  have hNew : origin.HandsOut [] := by
    have hNumbered : origin.Numbered 0 := by
      rcases hOrigin with rfl | rfl
      · exact numbered_empty
      · exact ⟨rfl, numbered_empty.given⟩
    exact ⟨hNumbered, rfl, List.forall_mem_nil _⟩
  have hHandsOut : s.HandsOut log :=
    kept_by_steps HandsOut.of_carried operations hNew
  refine ⟨?_, hHandsOut.nodup_handles, ?_⟩
  · exact recalls_of_catalog (catalog_runFrom hDistinct operations)
  · intro handle hGiven later
    rw [runFrom_append]
    exact kept_by_steps
      (fun hThere hCarried => hCarried.isSome_find? hThere) later
      (hHandsOut.there handle hGiven)

/-
  Two common events get one name, and the one that had it is
  defined again. Now the other one is found by the name.
-/
theorem catalog_follows_definitions_of_one_name :
    let origin := withDefaultEvents
    let operations : List Operation :=
      [.createEventSet,
        .addNamedEvent 1 "TOT_CYC",
        .defineEvent 0x80000032 "TOT_CYC" 7,
        .createEventSet,
        .defineEvent 0x8000003b "TOT_CYC" 9,
        .addNamedEvent 2 "TOT_CYC"]
    let s := (runFrom origin operations).1
    let log := (runFrom origin operations).2
    (origin = empty ∨ origin = withDefaultEvents) ∧
      handles log = [1, 2] ∧
      (handles log).Nodup ∧
      (s.catalog.map CatalogEvent.code).Nodup ∧
      eventCode "TOT_CYC" s = .ok 0x80000032 s ∧
      eventName 0x80000032 s = .ok "TOT_CYC" s ∧
      s.weight 0x80000032 = 7 ∧
      eventName 0x8000003b s = .ok "TOT_CYC" s ∧
      s.weight 0x8000003b = 9 ∧
      eventCode "TOT_INS" s = .error (unknownName "TOT_INS") s ∧
      ∀ later,
        ((runFrom origin (operations ++ later)).1.sets.find?
            1).isSome =
          true := by
  intro origin operations s log
  have hOrigin : origin = empty ∨ origin = withDefaultEvents :=
    .inr rfl
  have hHandles : handles log = [1, 2] := by decide +kernel
  rcases catalog_follows_definitions hOrigin operations with
    ⟨hRecalls, hNodup, hThere⟩
  have hFound : eventCode "TOT_CYC" s = .ok 0x80000032 s :=
    hRecalls.found "TOT_CYC" ⟨0x80000032, "TOT_CYC", 7⟩ rfl
  have hOne :=
    hRecalls.known 0x80000032 ⟨0x80000032, "TOT_CYC", 7⟩ rfl
  have hOther :=
    hRecalls.known 0x8000003b ⟨0x8000003b, "TOT_CYC", 9⟩ rfl
  refine ⟨hOrigin, hHandles, hNodup ?_, hRecalls.distinct, hFound,
    hRecalls.back _ _ _ hFound, hOne.2, hOther.1, hOther.2,
    hRecalls.missing "TOT_INS" rfl, ?_⟩
  · change (handles log).length < 2 ^ 31
    rw [hHandles]
    decide
  · intro later
    refine hThere 1 ?_ later
    change 1 ∈ handles log
    rw [hHandles]
    decide

end Simulated

end CoreTally
