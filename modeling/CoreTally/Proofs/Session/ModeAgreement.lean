import CoreTally.Proofs.Metric.ModeAgreement
import CoreTally.Proofs.Session.Visits

/-
  Two runs of one workload, on a simulated source and with a
  session each. One run reads after every step, which leaves
  the counters alone, and the other one accumulates, which
  zeroes them. Their sessions record the same.

  Key definitions include:
    * `Lockstep`

  Key theorems include:
    * `Lockstep.perform`
    * `Lockstep.performAll`
    * `Session.modes_agree`
-/

namespace CoreTally

------------------------------------------------------------
-- Two Runs in Lockstep
------------------------------------------------------------

/-
  Two runs from the source `origin` after an amount of work.
  The counters of the first one hold all of it and those of
  the second one nothing, and what the next read of the first
  one finds is what the second one has stored.
-/
structure Lockstep
    (origin : Simulated)
    (codes : List EventCode)
    (work : Nat)
    (s : Simulated)
    (session : Session)
    (s' : Simulated)
    (session' : Session) : Prop where
  events : s.event? = origin.event?
  events' : s'.event? = origin.event?
  counted :
    ∃ binding,
      s.sets.find? session.handle =
        some (SimulatedSet.counting codes
          (Simulated.tally origin.weight work) binding)
  zeroed :
    ∃ binding,
      s'.sets.find? session.handle =
        some (SimulatedSet.counting codes
          (Simulated.tally origin.weight 0) binding)
  same : session' = { session with ledger := session'.ledger }
  twin :
    session'.ledger.requestReset =
      (session.ledger.opened .read).requestReset
  spreads :
    session.ledger.Spreads origin.nameOf
      (fun code => (origin.weight code).toInt * work) codes

namespace Lockstep

variable {origin : Simulated}
variable {codes : List EventCode}
variable {work : Nat}
variable {s s' : Simulated}
variable {session session' : Session}
variable {site : Site}

/- More work moves every tally outward. -/
theorem outward
    {weight : EventCode → Count}
    {more : Nat}
    {code : EventCode}
    (hWithin : Simulated.Within weight (work + more) code) :
    Posting.Outward ((weight code).toInt * work)
      (Simulated.tally weight (work + more) code).toInt := by
  rw [Simulated.toInt_tally hWithin, Int.natCast_add,
    Int.mul_add]
  have hWork : (0 : Int) ≤ work := Int.natCast_nonneg _
  have hMore : (0 : Int) ≤ more := Int.natCast_nonneg _
  rcases Int.le_total 0 (weight code).toInt with hSign | hSign
  · left
    have hBefore := Int.mul_nonneg hSign hWork
    have hStep := Int.mul_nonneg hSign hMore
    omega
  · right
    have hBefore := Int.mul_nonpos_of_nonpos_of_nonneg hSign hWork
    have hStep := Int.mul_nonpos_of_nonpos_of_nonneg hSign hMore
    omega

/-
  Storing all work as read or the last part of it as
  accumulated leaves ledgers that differ in the pending reset.
-/
theorem apply_tallies
    {ledger ledger' : Ledger}
    {more : Nat}
    (hTwin :
      ledger'.requestReset = (ledger.opened .read).requestReset)
    (hSpreads :
      ledger.Spreads origin.nameOf
        (fun code => (origin.weight code).toInt * work) codes)
    (hDistinct : (codes.map origin.nameOf).Nodup)
    (hWithin :
      ∀ code ∈ codes,
        Simulated.Within origin.weight (work + more) code)
    (unit : UnitId)
    (node : Nat)
    (instant : Instant) :
    let batch := fun total : Nat =>
      (⟨unit, node, instant,
        readingsOf origin.nameOf
          (Simulated.tally origin.weight total) codes,
        false⟩ : Batch)
    let after := ledger.apply (.store .read (batch (work + more)))
    ledger'.apply (.store .accumulate (batch (0 + more))) =
        after.requestReset ∧
      after.Spreads origin.nameOf
        (fun code =>
          (origin.weight code).toInt * (work + more : Nat))
        codes := by
  intro batch after
  have hFits :
      ∀ code ∈ codes,
        ((((origin.weight code).toInt * work).natAbs : Nat) : Int) ≤
          Count.greatest := by
    intro code hCode
    rw [Simulated.natAbs_product]
    exact (hWithin code hCode).mono (Nat.le_add_right _ _)
  have hOutward :
      ∀ code ∈ codes,
        Posting.Outward ((origin.weight code).toInt * work)
          (Simulated.tally origin.weight (work + more)
            code).toInt := by
    intro code hCode
    exact outward (hWithin code hCode)
  have hIncrease :
      ∀ code ∈ codes,
        (Simulated.tally origin.weight (work + more) code).toInt =
          (origin.weight code).toInt * work +
            (Simulated.tally origin.weight (0 + more)
              code).toInt := by
    intro code hCode
    have hPart : Simulated.Within origin.weight (0 + more) code :=
      (hWithin code hCode).mono (by omega)
    rw [Simulated.toInt_tally (hWithin code hCode),
      Simulated.toInt_tally hPart, Nat.zero_add,
      Int.natCast_add, Int.mul_add]
  constructor
  · exact Ledger.apply_accumulate_eq_read hSpreads hDistinct
      hFits hOutward hIncrease hTwin unit node instant
  · intro code hCode
    have hSpread :=
      hSpreads.apply_read hDistinct hFits hOutward unit node
        instant code hCode
    simp only [Simulated.toInt_tally (hWithin code hCode)]
      at hSpread
    exact hSpread

/-
  A visit in both runs succeeds and keeps them in lockstep.
  Afterwards only the pending reset tells the sessions apart.
-/
theorem perform
    (hLockstep : Lockstep origin codes work s session s' session')
    (hCatalogued : origin.Catalogued codes)
    {visit : Visit}
    (hPossible : visit.Possible site)
    (hWithin :
      ∀ code ∈ codes,
        Simulated.Within origin.weight
          (work + visit.work.toNat) code)
    (resolver : Resolver)
    (machine : Machine) :
    let source := Simulated.source (resolver.resolve machine)
    ∃ next next' : Simulated,
      ∃ later later' : Session,
        visit.perform source site session.handle .read
            (s, session) =
            .ok () (next, later) ∧
          visit.perform source site session.handle .accumulate
              (s', session') =
            .ok () (next', later') ∧
          later.handle = session.handle ∧
          Lockstep origin codes (work + visit.work.toNat)
            next later next' later' ∧
          later.ledger.pendingReset = false ∧
          later' =
            { later with ledger := later.ledger.requestReset } := by
  intro source
  rcases hLockstep with
    ⟨hEvents, hEvents', ⟨binding, hCounted⟩,
      ⟨binding', hZeroed⟩, hSame, hTwin, hSpreads⟩
  rcases Option.isSome_iff_exists.mp hPossible.located with
    ⟨node, hNode⟩
  have hHandle : session'.handle = session.handle := by
    rw [hSame]
  have hLatest : session'.latest = session.latest := by
    have hLedgers := congrArg Ledger.latest hTwin
    rwa [Ledger.requestReset, Ledger.requestReset,
      Ledger.latest_opened] at hLedgers
  have hWithin' :
      ∀ code ∈ codes,
        Simulated.Within origin.weight
          (0 + visit.work.toNat) code := by
    intro code hCode
    exact (hWithin code hCode).mono (by omega)
  rcases Visit.perform_ok hEvents hCounted hCatalogued hNode
    hPossible.fits hWithin resolver machine .read with
    ⟨next, hRead, hNext, hFound⟩
  rw [← hHandle] at hZeroed
  rcases Visit.perform_ok hEvents' hZeroed hCatalogued hNode
    hPossible.fits hWithin' resolver machine .accumulate with
    ⟨next', hAccumulate, hNext', hFound'⟩
  rw [hHandle, hLatest] at hAccumulate
  rw [hHandle] at hFound'
  rcases apply_tallies hTwin hSpreads hCatalogued.distinct hWithin
    visit.unit node (Instant.next visit.now session.latest) with
    ⟨hLedgers, hSpreads'⟩
  rw [hLedgers] at hAccumulate
  have hPending := Ledger.pendingReset_apply_read session.ledger
    ⟨visit.unit, node, Instant.next visit.now session.latest,
      readingsOf origin.nameOf
        (Simulated.tally origin.weight
          (work + visit.work.toNat)) codes, false⟩
  refine ⟨next, next', _, _, hRead, hAccumulate, rfl, ?_,
    hPending, ?_⟩
  · refine ⟨hNext, hNext', ⟨_, hFound⟩, ⟨_, hFound'⟩, ?_, ?_,
      hSpreads'⟩
    · rw [hSame]
    · rw [Ledger.opened_of_notPending hPending]
      rfl
  · rw [hSame]

/- Two runs from a session that has just been started. -/
theorem start
    {handle : EventSet}
    {set : SimulatedSet}
    (hSet : origin.sets.find? handle = some set)
    {resolve : UnitBinding → Except Error UnitId}
    (hStart :
      Session.start (Simulated.source resolve) handle
          (origin, none) =
        .ok () (s, some session)) :
    set.codes ≠ [] ∧
      session.handle = handle ∧
        Lockstep origin set.codes 0 s session s session := by
  rcases Session.start_cases hSet hStart with
    ⟨rfl, hCodes, rfl⟩
  have hZero :
      (fun _ => 0 : EventCode → Count) =
        Simulated.tally origin.weight 0 := by
    funext code
    exact (Simulated.tally_zero origin.weight code).symm
  have hFound :
      ∃ binding,
        (origin.putSet handle
          (SimulatedSet.counting set.codes (fun _ => 0)
            set.binding)).sets.find? handle =
          some (SimulatedSet.counting set.codes
            (Simulated.tally origin.weight 0) binding) := by
    refine ⟨set.binding, ?_⟩
    rw [Simulated.find?_putSet, hZero]
  refine ⟨hCodes, rfl, rfl, rfl, hFound, hFound, rfl, rfl, ?_⟩
  intro code _
  refine ⟨fun _ => none, ?_⟩
  simp only [Int.natCast_zero, Int.mul_zero]
  exact EventSeries.Spread.nil _

/- Any number of visits keeps two runs in lockstep. -/
theorem performAll
    {visits : List Visit}
    (hLockstep : Lockstep origin codes work s session s' session')
    (hCatalogued : origin.Catalogued codes)
    (hPossible : ∀ visit ∈ visits, visit.Possible site)
    (hWithin :
      ∀ code ∈ codes,
        Simulated.Within origin.weight
          (work + Visit.totalWork visits) code)
    (resolver : Resolver)
    (machine : Machine) :
    let source := Simulated.source (resolver.resolve machine)
    ∃ next next' : Simulated,
      ∃ later later' : Session,
        Visit.performAll source site session.handle .read visits
            (s, session) =
            .ok () (next, later) ∧
          Visit.performAll source site session.handle
              .accumulate visits (s', session') =
            .ok () (next', later') ∧
          later.handle = session.handle ∧
          Lockstep origin codes
            (work + Visit.totalWork visits)
            next later next' later' := by
  intro source
  induction visits generalizing work s session s' session' with
  | nil => exact ⟨s, s', session, session', rfl, rfl, rfl, hLockstep⟩
  | cons visit visits ih =>
      rw [Visit.totalWork_cons, ← Nat.add_assoc] at hWithin ⊢
      have hStepWithin :
          ∀ code ∈ codes,
            Simulated.Within origin.weight
              (work + visit.work.toNat) code := by
        intro code hCode
        exact (hWithin code hCode).mono (Nat.le_add_right _ _)
      rcases hLockstep.perform hCatalogued
        (hPossible visit List.mem_cons_self) hStepWithin resolver
        machine with
        ⟨next, next', later, later', hRead, hAccumulate,
          hHandle, hNext, _, _⟩
      rcases ih hNext
        (fun other hOther =>
          hPossible other (List.mem_cons_of_mem _ hOther))
        hWithin with
        ⟨last, last', final, final', hReads, hAccumulates,
          hHandle', hLast⟩
      rw [hHandle] at hReads hAccumulates hHandle'
      refine ⟨last, last', final, final', ?_, ?_, hHandle', hLast⟩
      · exact (Action.bind_ok hRead).trans hReads
      · exact (Action.bind_ok hAccumulate).trans hAccumulates

end Lockstep

------------------------------------------------------------
-- The Agreement
------------------------------------------------------------

namespace Session

/-
  Start a session on a simulated event set whose events have
  distinct names, and perform a schedule of visits twice. If
  the tallies stay within the range, then after every visit
  the run that reads and the run that accumulates hold the
  same session, up to the reset that the second one asks for.
-/
theorem modes_agree
    {s₀ s₁ : Simulated}
    {handle : EventSet}
    {set : SimulatedSet}
    {session : Session}
    {site : Site}
    {resolver : Resolver}
    {machine : Machine}
    {schedule : List Visit}
    (hSet : s₀.sets.find? handle = some set)
    (hStart :
      start (Simulated.source (resolver.resolve machine)) handle
          (s₀, none) =
        .ok () (s₁, some session))
    (hNamed :
      ∀ code ∈ set.codes, (s₀.event? code).isSome = true)
    (hDistinct : (set.codes.map s₀.nameOf).Nodup)
    (hThreads :
      ∀ visit ∈ schedule,
        (site.topology.find? site.root visit.unit
          .thread).isSome = true)
    (hWork :
      ∀ visit ∈ schedule,
        (visit.work.toNat : Int) ≤ Count.greatest)
    (hWithin :
      ∀ code ∈ set.codes,
        Simulated.Within s₀.weight (Visit.totalWork schedule)
          code)
    {done : List Visit}
    (hDone : done <+: schedule)
    (hSome : done ≠ []) :
    let source := Simulated.source (resolver.resolve machine)
    ∃ read accumulated : Simulated,
      ∃ reading accumulating : Session,
        Visit.performAll source site handle .read done
            (s₁, session) =
            .ok () (read, reading) ∧
          Visit.performAll source site handle .accumulate done
              (s₁, session) =
            .ok () (accumulated, accumulating) ∧
          reading.ledger.pendingReset = false ∧
          accumulating =
            { reading with
              ledger := reading.ledger.requestReset } := by
  intro source
  rcases Lockstep.start hSet hStart with
    ⟨hCodes, rfl, hLockstep⟩
  have hCatalogued : s₀.Catalogued set.codes :=
    ⟨hCodes, hNamed, hDistinct⟩
  have hPossible : ∀ visit ∈ schedule, visit.Possible site := by
    intro visit hVisit
    exact ⟨hThreads visit hVisit, hWork visit hVisit⟩
  -- Only a last visit settles the reset that the start has left
  -- pending, so it is split off from those before it.
  rcases List.eq_nil_or_concat done with
    rfl | ⟨init, last, rfl⟩
  · contradiction
  rw [List.concat_eq_append] at hDone ⊢
  rcases hDone with ⟨rest, rfl⟩
  have hInitWithin :
      ∀ code ∈ set.codes,
        Simulated.Within s₀.weight (0 + Visit.totalWork init)
          code := by
    intro code hCode
    apply (hWithin code hCode).mono
    simp only [Visit.totalWork_append]
    omega
  have hLastWithin :
      ∀ code ∈ set.codes,
        Simulated.Within s₀.weight
          (0 + Visit.totalWork init + last.work.toNat) code := by
    intro code hCode
    apply (hWithin code hCode).mono
    simp only [Visit.totalWork_append, Visit.totalWork_cons]
    omega
  rcases hLockstep.performAll hCatalogued
    (fun visit hVisit => hPossible visit (by simp [hVisit]))
    hInitWithin resolver machine with
    ⟨next, next', later, later', hReads, hAccumulates, hHandle,
      hNext⟩
  rcases hNext.perform hCatalogued (hPossible last (by simp))
    hLastWithin resolver machine with
    ⟨read, accumulated, reading, accumulating, hRead,
      hAccumulate, _, _, hPending, hSame⟩
  rw [hHandle] at hRead hAccumulate
  refine ⟨read, accumulated, reading, accumulating, ?_, ?_,
    hPending, hSame⟩
  · rw [Visit.performAll_append, Action.bind_ok hReads]
    exact Action.bind_ok hRead
  · rw [Visit.performAll_append, Action.bind_ok hAccumulates]
    exact Action.bind_ok hAccumulate

/- Two events that follow a round trip over two threads. -/
theorem modes_agree_round_trip :
    let set : SimulatedSet :=
      ⟨[⟨0x80000032, 0⟩, ⟨0x8000002e, 0⟩], false, .cpu 0⟩
    let s₀ := Simulated.withDefaultEvents.putSet 1 set
    let site : Site := ⟨.uniform 1 2 1, 0⟩
    let schedule : List Visit :=
      [⟨0, 100, 5⟩, ⟨1, 50, 5⟩, ⟨0, 25, 9⟩]
    let source := Simulated.source (Resolver.resolve {} {})
    ∃ s₁ session,
      start source 1 (s₀, none) = .ok () (s₁, some session) ∧
        ∃ read accumulated : Simulated,
          ∃ reading accumulating : Session,
            Visit.performAll source site 1 .read schedule
                (s₁, session) =
                .ok () (read, reading) ∧
              Visit.performAll source site 1 .accumulate schedule
                  (s₁, session) =
                .ok () (accumulated, accumulating) ∧
              reading.ledger.pendingReset = false ∧
              accumulating =
                { reading with
                  ledger := reading.ledger.requestReset } := by
  intro set s₀ site schedule source
  have hStart :
      start source 1 (s₀, none) =
        .ok ()
          (s₀.putSet 1 { set.zeroed with running := true },
            some (fresh 1)) := rfl
  have hThreads :
      ∀ visit ∈ schedule,
        (site.topology.find? site.root visit.unit
          .thread).isSome = true := by
    decide
  have hNamed :
      set.codes.all (fun code => (s₀.event? code).isSome) =
        true := by
    decide
  have hWithin :
      set.codes.all (fun code =>
          Simulated.Within s₀.weight (Visit.totalWork schedule)
            code) =
        true := by
    decide
  have hAgree :=
    modes_agree (Simulated.find?_putSet _ _ _) hStart
      (List.all_eq_true.mp hNamed) (by decide) hThreads
      (by decide)
      (fun code hCode =>
        of_decide_eq_true (List.all_eq_true.mp hWithin code hCode))
      (List.prefix_refl schedule) (by decide)
  exact ⟨_, _, hStart, hAgree⟩

end Session

end CoreTally
