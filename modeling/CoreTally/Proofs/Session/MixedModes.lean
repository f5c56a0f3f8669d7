import CoreTally.Proofs.Metric.Gathering
import CoreTally.Proofs.Session.Journey

/-
  Reads and accumulates mixed in one session. A read books all
  that the counters show and leaves them as they are, so that
  the next accumulate books the same work once more. What is
  booked exceeds the work by no more than what is recounted
  that way.

  Key definitions include:
    * `Books`
    * `Books.step`
    * `Standing.Accounts`

  Key theorems include:
    * `Books.balanced_of`
    * `Standing.Accounts.step`
    * `Session.mixed_modes_book`
-/

namespace CoreTally

------------------------------------------------------------
-- Books
------------------------------------------------------------

/-
  Amounts of work: all of it, what the counters show, and what
  the total of an event stands for. Part of what the counters
  show may be exposed, as a read has booked it already, and
  part of what is booked may be recounted by accumulates.
-/
structure Books where
  work : Nat
  counted : Nat
  booked : Nat
  exposed : Nat
  recounted : Nat
deriving DecidableEq, Repr

namespace Books

/- Nothing has been done yet. -/
def start : Books :=
  ⟨0, 0, 0, 0, 0⟩

/- The books after one more leg. -/
def step (books : Books) : Leg → Books
| .migrate _ => books
| .execute work =>
    { books with
      work := books.work + work.toNat
      counted := books.counted + work.toNat }
| .observe _ .read _ =>
    { books with
      booked := books.counted
      exposed := books.counted }
| .observe _ .accumulate _ =>
    { books with
      counted := 0
      booked := books.booked + books.counted
      exposed := 0
      recounted := books.recounted + books.exposed }

/- The books after some legs. -/
def of (legs : List Leg) : Books :=
  legs.foldl step start

theorem of_concat
    (legs : List Leg)
    (leg : Leg) :
    of (legs ++ [leg]) = (of legs).step leg :=
  List.foldl_concat step start leg legs

/- Work that is booked twice has been recounted, or is exposed. -/
structure Balanced (books : Books) : Prop where
  counted_le : books.counted ≤ books.work
  exposed_le : books.exposed ≤ books.counted
  balance :
    books.booked + books.counted ≤
      books.work + books.exposed + books.recounted

theorem Balanced.step
    {books : Books}
    (hBalanced : books.Balanced)
    (leg : Leg) :
    (books.step leg).Balanced := by
  rcases hBalanced with ⟨hCounted, hExposed, hBalance⟩
  cases leg with
  | migrate unit => exact ⟨hCounted, hExposed, hBalance⟩
  | execute work =>
      constructor <;> simp only [Books.step] <;> omega
  | observe machine mode permanent =>
      cases mode <;>
        constructor <;> simp only [Books.step] <;> omega

theorem balanced_of
    (legs : List Leg) :
    (of legs).Balanced := by
  induction legs using List.reverseRecOn with
  | nil => constructor <;> decide
  | append_singleton legs leg ih =>
      rw [of_concat]
      exact ih.step leg

/- What is booked is done work, or recounted. -/
theorem Balanced.booked_le
    {books : Books}
    (hBalanced : books.Balanced) :
    books.booked ≤ books.work + books.recounted := by
  have hExposed := hBalanced.exposed_le
  have hBalance := hBalanced.balance
  omega

/- Neither the counter nor the total of an event clips. -/
structure Unclipped
    (weight : EventCode → Count)
    (code : EventCode)
    (books : Books) : Prop where
  counted : Simulated.Within weight books.counted code
  booked : Simulated.Within weight books.booked code

instance
    (weight : EventCode → Count)
    (code : EventCode)
    (books : Books) :
    Decidable (books.Unclipped weight code) :=
  decidable_of_iff
    (Simulated.Within weight books.counted code ∧
      Simulated.Within weight books.booked code)
    ⟨fun h => ⟨h.1, h.2⟩, fun h => ⟨h.1, h.2⟩⟩

end Books

------------------------------------------------------------
-- Accounts
------------------------------------------------------------

namespace Standing

/-
  The counter and the total of an event are as the books say.
  Without a pending reset, the next read finds at least what
  has been booked.
-/
structure Accounts
    (setting : Setting)
    (code : EventCode)
    (books : Books)
    (standing : Standing) : Prop where
  count :
    standing.count code =
      Simulated.tally setting.origin.weight books.counted code
  gathers :
    standing.ledger.Gathers (setting.name code)
      ((setting.origin.weight code).toInt * books.booked)
  pending :
    standing.ledger.pendingReset = false →
      books.booked ≤ books.counted

variable {setting : Setting}
variable {code : EventCode}
variable {books : Books}
variable {standing : Standing}

/- The total of an event follows the books over any leg. -/
theorem Accounts.step
    (hAccounts : standing.Accounts setting code books)
    (hCode : code ∈ setting.codes)
    (hDistinct : (setting.codes.map setting.name).Nodup)
    (hWeight : 0 ≤ (setting.origin.weight code).toInt)
    {leg : Leg}
    (hPossible : leg.Possible setting.site)
    (hUnclipped : books.Unclipped setting.origin.weight code)
    (hNext :
      (books.step leg).Unclipped setting.origin.weight code)
    (hEarly : standing.ledger.latest.toNat < Instant.greatest) :
    (setting.step standing leg).Accounts setting code
      (books.step leg) := by
  cases leg with
  | migrate unit =>
      exact ⟨hAccounts.count, hAccounts.gathers, hAccounts.pending⟩
  | execute work =>
      refine ⟨?_, hAccounts.gathers, ?_⟩
      · have hSum :=
          Simulated.plus_times_tally_of_nonneg books.counted
            hWeight hPossible
        rw [← hAccounts.count] at hSum
        exact hSum
      · intro hPending
        exact Nat.le_add_right_of_le (hAccounts.pending hPending)
  | observe machine mode permanent =>
      have hLater :
          standing.ledger.latest <
            Instant.next machine.clock.now standing.ledger.latest :=
        Instant.lt_next hEarly
      have hValue :=
        Setting.valuesOf_batch hDistinct hCode standing
          machine.clock.now permanent
      have hCount :=
        Simulated.toInt_tally hUnclipped.counted
      rw [← hAccounts.count] at hCount
      have hNonneg : 0 ≤ (standing.count code).toInt := by
        rw [hCount]
        exact Int.mul_nonneg hWeight (Int.natCast_nonneg _)
      cases mode with
      | read =>
          have hMore :
              standing.ledger.pendingReset = false →
                (setting.origin.weight code).toInt * books.booked ≤
                  (standing.count code).toInt := by
            intro hPending
            rw [hCount]
            exact Int.mul_le_mul_of_nonneg_left
              (Int.ofNat_le.mpr (hAccounts.pending hPending))
              hWeight
          have hRead :=
            hAccounts.gathers.apply_read hLater hValue hNonneg hMore
          rw [hCount] at hRead
          exact ⟨hAccounts.count, hRead, fun _ => Nat.le_refl _⟩
      | accumulate =>
          have hBooked := hNext.booked
          have hSum :
              (setting.origin.weight code).toInt * books.booked +
                  (standing.count code).toInt =
                (setting.origin.weight code).toInt *
                  (books.booked + books.counted : Nat) := by
            rw [hCount, Int.natCast_add, Int.mul_add]
          have hFits :
              (setting.origin.weight code).toInt * books.booked +
                  (standing.count code).toInt ≤
                Count.greatest := by
            rw [hSum, ← Int.natAbs_of_nonneg hWeight]
            exact hBooked
          have hStored :=
            hAccounts.gathers.apply_accumulate hLater hValue
              hNonneg hFits
          rw [hSum] at hStored
          refine ⟨(Simulated.tally_zero _ _).symm, hStored, ?_⟩
          intro hPending
          -- The accumulate itself has asked for a reset.
          rw [Setting.step, Ledger.pendingReset_apply_accumulate]
            at hPending
          contradiction

/- At the start nothing is counted or booked. -/
theorem accounts_start
    (setting : Setting)
    (unit : UnitId)
    (code : EventCode) :
    (Setting.start unit).Accounts setting code Books.start := by
  refine ⟨(Simulated.tally_zero _ _).symm, ?_, ?_⟩
  · have hZero :
        (setting.origin.weight code).toInt *
            (Books.start.booked : Int) =
          0 :=
      Int.mul_zero _
    rw [hZero]
    exact Ledger.gathers_fresh _
  · intro hPending
    contradiction

/- The total of an event follows the books over a journey. -/
theorem Accounts.run
    {start : Standing}
    (hStart : start.Accounts setting code Books.start)
    (hCode : code ∈ setting.codes)
    (hDistinct : (setting.codes.map setting.name).Nodup)
    (hWeight : 0 ≤ (setting.origin.weight code).toInt)
    {legs : List Leg}
    (hPossible : ∀ leg ∈ legs, leg.Possible setting.site)
    (hUnclipped :
      ∀ done, done <+: legs →
        (Books.of done).Unclipped setting.origin.weight code)
    (hEarly :
      ∀ done, done <+: legs →
        (done.foldl Leg.stamp start.ledger.latest).toNat <
          Instant.greatest) :
    (setting.run start legs).Accounts setting code
        (Books.of legs) ∧
      (setting.run start legs).ledger.latest =
        legs.foldl Leg.stamp start.ledger.latest := by
  induction legs using List.reverseRecOn with
  | nil => exact ⟨hStart, rfl⟩
  | append_singleton legs leg ih =>
      have hFront := List.prefix_append legs [leg]
      rcases ih
        (fun other hOther => hPossible other (by simp [hOther]))
        (fun done hDone => hUnclipped done (hDone.trans hFront))
        (fun done hDone => hEarly done (hDone.trans hFront)) with
        ⟨hAccounts, hLatest⟩
      have hBefore := hEarly legs hFront
      rw [← hLatest] at hBefore
      have hNext := hUnclipped _ (List.prefix_refl _)
      rw [Books.of_concat] at hNext
      have hStep :=
        hAccounts.step hCode hDistinct hWeight
          (hPossible leg (by simp)) (hUnclipped legs hFront) hNext
          hBefore
      rw [Setting.run_concat, Books.of_concat]
      refine ⟨hStep, ?_⟩
      rw [Setting.latest_step, hLatest, List.foldl_concat]

end Standing

------------------------------------------------------------
-- Sessions
------------------------------------------------------------

namespace Session

/-
  Start a session on a simulated event set of named events and
  mix moves, work, reads and accumulates in any order. Nothing
  fails, and the total of every event is its weight times what
  the books say is booked: no more than all work together with
  what accumulates have recounted, after a read had booked it.
-/
theorem mixed_modes_book
    {s₀ s₁ : Simulated}
    {handle : EventSet}
    {set : SimulatedSet}
    {session : Session}
    {site : Site}
    {resolver : Resolver}
    {machine : Machine}
    {unit : UnitId}
    {legs : List Leg}
    (hSet : s₀.sets.find? handle = some set)
    (hStart :
      start (Simulated.source (resolver.resolve machine)) handle
          (s₀, none) =
        .ok () (s₁, some session))
    (hBinding : set.binding = .cpu unit)
    (hThread :
      (site.topology.find? site.root unit .thread).isSome = true)
    (hNamed :
      ∀ code ∈ set.codes, (s₀.event? code).isSome = true)
    (hDistinct : (set.codes.map s₀.nameOf).Nodup)
    (hWeights : ∀ code ∈ set.codes, 0 ≤ (s₀.weight code).toInt)
    (hPossible : ∀ leg ∈ legs, leg.Possible site)
    (hUnclipped :
      ∀ done, done <+: legs →
        ∀ code ∈ set.codes,
          (Books.of done).Unclipped s₀.weight code)
    (hEarly :
      ∀ done, done <+: legs →
        (done.foldl Leg.stamp 0).toNat < Instant.greatest) :
    ∃ (s : Simulated) (later : Session),
      Leg.performAll resolver site handle legs (s₁, session) =
          .ok () (s, later) ∧
        (∀ code ∈ set.codes,
          (later.metric (s₀.nameOf code) none none).toInt =
            (s₀.weight code).toInt * (Books.of legs).booked) ∧
        (Books.of legs).booked ≤
          (Books.of legs).work + (Books.of legs).recounted := by
  let setting : Setting := ⟨s₀, set.codes, site⟩
  rcases Session.start_cases hSet hStart with
    ⟨rfl, hCodes, rfl⟩
  rw [hBinding]
  have hDescribes :=
    setting.describes_start (fresh handle).handle hThread
  rcases Leg.performAll_ok hDescribes ⟨hCodes, hNamed, hDistinct⟩
    rfl hPossible resolver with
    ⟨s, hPerform, _⟩
  refine ⟨s, _, hPerform, ?_, (Books.balanced_of legs).booked_le⟩
  intro code hCode
  have hAccounts :=
    Standing.accounts_start setting unit code |>.run hCode
      hDistinct (hWeights code hCode) hPossible
      (fun done hDone => hUnclipped done hDone code hCode)
      hEarly
  have hBooked := (hUnclipped legs (List.prefix_refl _) code hCode).booked
  unfold Simulated.Within at hBooked
  rw [Int.natAbs_of_nonneg (hWeights code hCode)] at hBooked
  exact hAccounts.1.gathers.toInt_holding hBooked

/-
  A read shows ten units of work, and after a move and five more
  units an accumulate books the ten once again.
-/
theorem mixed_modes_book_after_move :
    let set : SimulatedSet := ⟨[⟨0x80000032, 0⟩], false, .cpu 0⟩
    let s₀ := Simulated.withDefaultEvents.putSet 1 set
    let site : Site := ⟨.uniform 1 2 1, 0⟩
    let legs : List Leg :=
      [.execute 10, .observe {} .read false, .migrate 1,
        .execute 5, .observe {} .accumulate true]
    ∃ (s₁ : Simulated) (session : Session) (s : Simulated)
        (later : Session),
      start (Simulated.source (Resolver.resolve {} {})) 1
          (s₀, none) =
          .ok () (s₁, some session) ∧
        Leg.performAll {} site 1 legs (s₁, session) =
            .ok () (s, later) ∧
          (later.metric "TOT_INS" none none).toInt = 2 * 25 ∧
          25 ≤ 15 + 10 := by
  intro set s₀ site legs
  have hStart :
      start (Simulated.source (Resolver.resolve {} {})) 1
          (s₀, none) =
        .ok ()
          (s₀.putSet 1 { set.zeroed with running := true },
            some (fresh 1)) := rfl
  have hThread :
      (site.topology.find? site.root 0 .thread).isSome = true := by
    decide
  have hPossible : ∀ leg ∈ legs, leg.Possible site := by decide
  have hNamed :
      set.codes.all (fun code => (s₀.event? code).isSome) =
        true := by
    decide
  have hWeights :
      set.codes.all (fun code => 0 ≤ (s₀.weight code).toInt) =
        true := by
    decide
  have hUnclipped :
      ∀ done ∈ legs.inits,
        set.codes.all (fun code =>
          (Books.of done).Unclipped s₀.weight code) =
            true := by
    decide
  have hEarly :
      ∀ done ∈ legs.inits,
        (done.foldl Leg.stamp 0).toNat < Instant.greatest := by
    decide
  rcases mixed_modes_book (Simulated.find?_putSet _ _ _) hStart rfl
    hThread (List.all_eq_true.mp hNamed) (by decide)
    (fun code hCode =>
      of_decide_eq_true (List.all_eq_true.mp hWeights code hCode))
    hPossible
    (fun done hDone code hCode =>
      of_decide_eq_true
        (List.all_eq_true.mp
          (hUnclipped done ((List.mem_inits done legs).mpr hDone))
          code hCode))
    (fun done hDone =>
      hEarly done ((List.mem_inits done legs).mpr hDone)) with
    ⟨s, later, hPerform, hTotal, hBooked⟩
  exact ⟨_, _, s, later, hStart, hPerform,
    hTotal 0x80000032 (by decide), hBooked⟩

/-
  Ten units of work are read and then accumulated. The total of
  an event that counts twice per unit is not 20 but 40.
-/
theorem accumulate_counts_read_work_again :
    let set : SimulatedSet := ⟨[⟨0x80000032, 0⟩], false, .cpu 0⟩
    let s₀ := Simulated.withDefaultEvents.putSet 1 set
    let site : Site := ⟨.uniform 1 2 1, 0⟩
    let legs : List Leg :=
      [.execute 10, .observe {} .read false,
        .observe {} .accumulate false]
    ∃ (s₁ : Simulated) (session : Session) (s : Simulated)
        (later : Session),
      start (Simulated.source (Resolver.resolve {} {})) 1
          (s₀, none) =
          .ok () (s₁, some session) ∧
        Leg.performAll {} site 1 legs (s₁, session) =
            .ok () (s, later) ∧
          (Books.of legs).work = 10 ∧
          s₀.weight 0x80000032 = 2 ∧
          ¬ (later.metric "TOT_INS" none none).toInt ≤ 2 * 10 := by
  intro set s₀ site legs
  refine ⟨_, _, _, _, rfl, rfl, rfl, rfl, ?_⟩
  decide

end Session

end CoreTally
