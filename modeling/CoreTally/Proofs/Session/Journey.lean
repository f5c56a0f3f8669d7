import CoreTally.Proofs.Session.Requests
import CoreTally.Proofs.Session.Visits

/-
  A session on a simulated event set that is moved, works and
  is observed in any order. What the counters show and what the
  ledger stores follows from the legs of the journey alone, and
  nothing fails as long as the set stays within its site.

  Key definitions include:
    * `Leg`
    * `Leg.Possible`
    * `Setting`
    * `Standing`
    * `Setting.step`
    * `Setting.run`
    * `Standing.Describes`

  Key theorems include:
    * `Leg.perform_ok`
    * `Leg.performAll_ok`
-/

namespace CoreTally

------------------------------------------------------------
-- Legs
------------------------------------------------------------

/-
  One leg of a journey: a move to another unit, some work, or
  an observation on the machine as it is at that time.
-/
inductive Leg where
| migrate (unit : UnitId)
| execute (work : UInt64)
| observe
    (machine : Machine)
    (mode : Posting.Mode)
    (permanent : Bool)

namespace Leg

/- Moves stay within the site, and work fits a count. -/
def Possible (site : Site) : Leg → Prop
| .migrate unit =>
    (site.topology.find? site.root unit .thread).isSome = true
| .execute work => (work.toNat : Int) ≤ Count.greatest
| .observe _ _ _ => True

instance (site : Site) : (leg : Leg) → Decidable (leg.Possible site)
| .migrate unit =>
    inferInstanceAs (Decidable
      ((site.topology.find? site.root unit .thread).isSome = true))
| .execute work =>
    inferInstanceAs (Decidable ((work.toNat : Int) ≤ Count.greatest))
| .observe _ _ _ => inferInstanceAs (Decidable True)

/- Carry out a leg under a session. -/
def perform
    (resolver : Resolver)
    (site : Site)
    (handle : EventSet) :
    Leg → Action Error (Simulated × Session) Unit
| .migrate unit =>
    Config.underSession (Simulated.migrate handle unit)
| .execute work =>
    Config.underSession (Simulated.execute handle work)
| .observe machine mode permanent =>
    discard
      (Session.observe (Simulated.source (resolver.resolve machine))
        site machine.clock.now mode.primitive permanent)

/- Carry out legs one after another. -/
def performAll
    (resolver : Resolver)
    (site : Site)
    (handle : EventSet)
    (legs : List Leg) : Action Error (Simulated × Session) Unit :=
  legs.forM (perform resolver site handle)

theorem performAll_cons
    (resolver : Resolver)
    (site : Site)
    (handle : EventSet)
    (leg : Leg)
    (legs : List Leg) :
    performAll resolver site handle (leg :: legs) =
      perform resolver site handle leg >>= fun _ =>
        performAll resolver site handle legs := rfl

/- The latest instant after a leg. -/
def stamp (latest : Instant) : Leg → Instant
| .observe machine _ _ => Instant.next machine.clock.now latest
| _ => latest

end Leg

------------------------------------------------------------
-- Standings
------------------------------------------------------------

/- The source before the start, the counted events and the site. -/
structure Setting where
  origin : Simulated
  codes : List EventCode
  site : Site

/- Where a journey has come to. -/
structure Standing where
  unit : UnitId
  count : EventCode → Count
  ledger : Ledger

/- The counters that a mode leaves behind. -/
def Posting.Mode.kept
    (count : EventCode → Count) :
    Posting.Mode → EventCode → Count
| .read => count
| .accumulate => fun _ => 0

namespace Setting

variable (setting : Setting)

/- A unit is a thread of the site. -/
def Located (unit : UnitId) : Prop :=
  (setting.site.topology.find? setting.site.root unit
    .thread).isSome = true

/- The component of a thread of the site. -/
def node (unit : UnitId) : Nat :=
  (setting.site.topology.find? setting.site.root unit
    .thread).getD 0

/- The name of an event in the catalog. -/
def name (code : EventCode) : String :=
  setting.origin.nameOf code

/- What an observation stores. -/
def batch
    (standing : Standing)
    (now : Instant)
    (permanent : Bool) : Batch where
  unit := standing.unit
  node := setting.node standing.unit
  instant := Instant.next now standing.ledger.latest
  readings := readingsOf setting.name standing.count setting.codes
  permanent := permanent

/- The counts after some work. -/
def worked
    (work : UInt64)
    (count : EventCode → Count)
    (code : EventCode) : Count :=
  (count code).plus
    ((Count.clamp work.toNat).times (setting.origin.weight code))

/- The standing when counting starts, with a new session. -/
def start (unit : UnitId) : Standing where
  unit := unit
  count := fun _ => 0
  ledger := Ledger.empty.requestReset

/- The standing after one more leg. -/
def step (standing : Standing) : Leg → Standing
| .migrate unit => { standing with unit }
| .execute work =>
    { standing with count := setting.worked work standing.count }
| .observe machine mode permanent =>
    { standing with
      count := mode.kept standing.count
      ledger :=
        standing.ledger.apply
          (.store mode
            (setting.batch standing machine.clock.now permanent)) }

/- The standing after some legs. -/
def run (standing : Standing) (legs : List Leg) : Standing :=
  legs.foldl setting.step standing

theorem run_concat
    (standing : Standing)
    (legs : List Leg)
    (leg : Leg) :
    setting.run standing (legs ++ [leg]) =
      setting.step (setting.run standing legs) leg :=
  List.foldl_concat setting.step standing leg legs

variable {setting : Setting}

theorem Located.find?_eq
    {unit : UnitId}
    (hLocated : setting.Located unit) :
    setting.site.topology.find? setting.site.root unit .thread =
      some (setting.node unit) := by
  rcases Option.isSome_iff_exists.mp hLocated with ⟨node, hNode⟩
  rw [Setting.node, hNode]
  rfl

/- The latest instant follows the clock readings alone. -/
theorem latest_step
    (standing : Standing)
    (leg : Leg) :
    (setting.step standing leg).ledger.latest =
      leg.stamp standing.ledger.latest := by
  cases leg with
  | migrate unit => rfl
  | execute work => rfl
  | observe machine mode permanent =>
      exact Ledger.latest_apply_store _ _ _

/- Every counted event is listed once, with its count. -/
theorem valuesOf_batch
    (hDistinct : (setting.codes.map setting.name).Nodup)
    {code : EventCode}
    (hCode : code ∈ setting.codes)
    (standing : Standing)
    (now : Instant)
    (permanent : Bool) :
    (setting.batch standing now permanent).valuesOf
        (setting.name code) =
      [standing.count code] :=
  filter_readingsOf hDistinct standing.count hCode

end Setting

/- The source is where a journey has come to. -/
structure Standing.Describes
    (setting : Setting)
    (handle : EventSet)
    (standing : Standing)
    (s : Simulated) : Prop where
  events : s.event? = setting.origin.event?
  located : setting.Located standing.unit
  found :
    s.sets.find? handle =
      some (SimulatedSet.counting setting.codes standing.count
        (.cpu standing.unit))

/- A source whose event set has just been started. -/
theorem Setting.describes_start
    (setting : Setting)
    (handle : EventSet)
    {unit : UnitId}
    (hLocated : setting.Located unit) :
    (Setting.start unit).Describes setting handle
      (setting.origin.putSet handle
        (SimulatedSet.counting setting.codes (fun _ => 0)
          (.cpu unit))) :=
  ⟨rfl, hLocated, Simulated.find?_putSet _ _ _⟩

------------------------------------------------------------
-- Journeys
------------------------------------------------------------

namespace Leg

variable {setting : Setting}
variable {handle : EventSet}
variable {standing : Standing}
variable {s : Simulated}

theorem migrate_ok
    (hDescribes : standing.Describes setting handle s)
    {unit : UnitId}
    (hLocated : setting.Located unit) :
    ∃ next : Simulated,
      Simulated.migrate handle unit s = .ok () next ∧
        (setting.step standing (.migrate unit)).Describes setting
          handle next :=
  ⟨_, Simulated.migrate_eq hDescribes.found unit,
    hDescribes.events, hLocated, Simulated.find?_putSet _ _ _⟩

theorem execute_ok
    (hDescribes : standing.Describes setting handle s)
    {work : UInt64}
    (hFits : (work.toNat : Int) ≤ Count.greatest) :
    ∃ next : Simulated,
      Simulated.execute handle work s = .ok () next ∧
        (setting.step standing (.execute work)).Describes setting
          handle next := by
  rcases Count.ofWork?_of_le hFits with ⟨count, hCount, hToInt⟩
  have hClamp : count = Count.clamp work.toNat := by
    rw [← hToInt, Count.clamp_toInt]
  refine ⟨_, Simulated.execute_eq hDescribes.found hCount,
    hDescribes.events, hDescribes.located, ?_⟩
  rw [Simulated.find?_putSet, SimulatedSet.worked_counting,
    Simulated.weight_congr hDescribes.events, hClamp]
  rfl

/- An observation stores the counts, and some modes zero them. -/
theorem observe_ok
    {session : Session}
    (hDescribes : standing.Describes setting session.handle s)
    (hCatalogued : setting.origin.Catalogued setting.codes)
    (hLedger : session.ledger = standing.ledger)
    (resolver : Resolver)
    (machine : Machine)
    (mode : Posting.Mode)
    (permanent : Bool) :
    let after := setting.step standing (.observe machine mode permanent)
    ∃ next : Simulated,
      Session.observe (Simulated.source (resolver.resolve machine))
          setting.site machine.clock.now mode.primitive permanent
          (s, session) =
        .ok after.ledger.latest
          (next, { session with ledger := after.ledger }) ∧
        after.Describes setting session.handle next := by
  intro after
  have hObserve :=
    Simulated.observe_source hDescribes.found
      (hCatalogued.congr hDescribes.events)
      hDescribes.located.find?_eq resolver machine
      machine.clock.now mode.primitive permanent
  rw [Simulated.nameOf_congr hDescribes.events] at hObserve
  let left :=
    mode.primitive.left
      (SimulatedSet.counting setting.codes standing.count
        (.cpu standing.unit))
  refine ⟨s.putSet session.handle left, hObserve.trans ?_,
    hDescribes.events, hDescribes.located, ?_⟩
  · have hBatch :
        after.ledger =
          session.ledger.apply
            (.store mode
              (setting.batch standing machine.clock.now
                permanent)) := by
      rw [hLedger]
      rfl
    rw [hBatch, Ledger.latest_apply_store, Setting.batch,
      ← hLedger]
    cases mode <;> rfl
  · rw [Simulated.find?_putSet]
    cases mode with
    | read => rfl
    | accumulate =>
        exact congrArg some (SimulatedSet.zeroed_counting _ _ _)

/- A leg that is possible succeeds and leads one step on. -/
theorem perform_ok
    {session : Session}
    (hDescribes : standing.Describes setting session.handle s)
    (hCatalogued : setting.origin.Catalogued setting.codes)
    (hLedger : session.ledger = standing.ledger)
    {leg : Leg}
    (hPossible : leg.Possible setting.site)
    (resolver : Resolver) :
    let after := setting.step standing leg
    ∃ next : Simulated,
      leg.perform resolver setting.site session.handle (s, session) =
          .ok () (next, { session with ledger := after.ledger }) ∧
        after.Describes setting session.handle next := by
  intro after
  cases leg with
  | migrate unit =>
      rcases migrate_ok hDescribes hPossible with
        ⟨next, hMigrate, hNext⟩
      refine ⟨next, ?_, hNext⟩
      have hSame : after.ledger = session.ledger := hLedger.symm
      rw [hSame]
      exact Visit.underSession_ok hMigrate session
  | execute work =>
      rcases execute_ok hDescribes hPossible with
        ⟨next, hExecute, hNext⟩
      refine ⟨next, ?_, hNext⟩
      have hSame : after.ledger = session.ledger := hLedger.symm
      rw [hSame]
      exact Visit.underSession_ok hExecute session
  | observe machine mode permanent =>
      rcases observe_ok hDescribes hCatalogued hLedger resolver
        machine mode permanent with
        ⟨next, hObserve, hNext⟩
      exact ⟨next, Action.discard_ok hObserve, hNext⟩

/- Legs that are possible succeed and lead as many steps on. -/
theorem performAll_ok
    {session : Session}
    (hDescribes : standing.Describes setting session.handle s)
    (hCatalogued : setting.origin.Catalogued setting.codes)
    (hLedger : session.ledger = standing.ledger)
    {legs : List Leg}
    (hPossible : ∀ leg ∈ legs, leg.Possible setting.site)
    (resolver : Resolver) :
    let after := setting.run standing legs
    ∃ next : Simulated,
      performAll resolver setting.site session.handle legs
          (s, session) =
          .ok () (next, { session with ledger := after.ledger }) ∧
        after.Describes setting session.handle next := by
  induction legs generalizing standing s session with
  | nil =>
      refine ⟨s, ?_, hDescribes⟩
      rw [Setting.run, List.foldl_nil, ← hLedger]
      rfl
  | cons leg legs ih =>
      rcases List.forall_mem_cons.mp hPossible with
        ⟨hLeg, hLegs⟩
      rcases perform_ok hDescribes hCatalogued hLedger hLeg resolver
        with ⟨next, hPerform, hNext⟩
      -- The session is another one now, but its handle is not.
      let later : Session :=
        { session with
          ledger := (setting.step standing leg).ledger }
      rcases @ih (setting.step standing leg) next later hNext rfl
        hLegs with
        ⟨last, hRest, hLast⟩
      refine ⟨last, ?_, hLast⟩
      rw [performAll_cons, Action.bind_ok hPerform]
      exact hRest

end Leg

end CoreTally
