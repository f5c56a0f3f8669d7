import CoreTally.Counter.Simulated
import CoreTally.Proofs.CountSums

/-
  Operations of the simulated counter source on an event set
  that exists, one equation for each, and the counts that some
  work adds up to under the weights of a catalog.

  Key definitions include:
    * `SimulatedSet.counting`
    * `Simulated.tally`

  Key theorems include:
    * `Simulated.start_cases`
    * `Simulated.toInt_tally`
    * `Simulated.worked_tally`
-/

namespace CoreTally

/- An amount of work that fits a count is that count. -/
theorem Count.ofWork?_of_le
    {work : UInt64}
    (hFits : (work.toNat : Int) ≤ Count.greatest) :
    ∃ count,
      Count.ofWork? work = some count ∧
        count.toInt = work.toNat := by
  refine ⟨Int64.ofNat work.toNat, if_pos hFits, ?_⟩
  apply Int64.toInt_ofNat_of_lt
  simp only [greatest] at hFits
  omega

------------------------------------------------------------
-- Running Event Sets
------------------------------------------------------------

namespace SimulatedSet

/- A running event set that has counted certain values. -/
def counting
    (codes : List EventCode)
    (count : EventCode → Count)
    (binding : UnitBinding) : SimulatedSet where
  counters := codes.map fun code => ⟨code, count code⟩
  running := true
  binding := binding

variable (codes : List EventCode)
variable (count : EventCode → Count)
variable (binding : UnitBinding)

@[simp] theorem codes_counting :
    (counting codes count binding).codes = codes := by
  simp [SimulatedSet.codes, counting, Function.comp_def]

@[simp] theorem counts_counting :
    (counting codes count binding).counts = codes.map count := by
  simp [counts, counting, Function.comp_def]

@[simp] theorem zeroed_counting :
    (counting codes count binding).zeroed =
      counting codes (fun _ => 0) binding := by
  simp [zeroed, counting, Function.comp_def]

theorem worked_counting
    (weight : EventCode → Count)
    (work : Count) :
    (counting codes count binding).worked weight work =
      counting codes
        (fun code => (count code).plus (work.times (weight code)))
        binding := by
  simp [worked, counting, Function.comp_def]

/- An event set that starts counts from zero. -/
theorem zeroed_running
    (set : SimulatedSet) :
    { set.zeroed with running := true } =
      counting set.codes (fun _ => 0) set.binding := by
  simp [zeroed, counting, SimulatedSet.codes, Function.comp_def]

end SimulatedSet

namespace Simulated

variable {s : Simulated}
variable {handle : EventSet}
variable {set : SimulatedSet}

------------------------------------------------------------
-- Single Operations
------------------------------------------------------------

@[simp] theorem find?_putSet
    (s : Simulated)
    (handle : EventSet)
    (set : SimulatedSet) :
    (s.putSet handle set).sets.find? handle = some set := by
  rw [putSet, OrderedMap.find?_insert, if_pos rfl]

@[simp] theorem event?_putSet
    (s : Simulated)
    (handle : EventSet)
    (set : SimulatedSet) :
    (s.putSet handle set).event? = s.event? := rfl

@[simp] theorem weight_putSet
    (s : Simulated)
    (handle : EventSet)
    (set : SimulatedSet) :
    (s.putSet handle set).weight = s.weight := rfl

/- Sources with the same events know the same weights. -/
theorem weight_congr
    {other : Simulated}
    (hEvents : other.event? = s.event?) :
    other.weight = s.weight := by
  funext code
  rw [weight, weight, hEvents]

/- The name of an event, nothing for an unknown one. -/
def nameOf
    (s : Simulated)
    (code : EventCode) : String :=
  ((s.event? code).map CatalogEvent.name).getD ""

theorem nameOf_congr
    {other : Simulated}
    (hEvents : other.event? = s.event?) :
    other.nameOf = s.nameOf := by
  funext code
  rw [nameOf, nameOf, hEvents]

theorem migrate_eq
    (hFind : s.sets.find? handle = some set)
    (unit : UnitId) :
    migrate handle unit s =
      .ok () (s.putSet handle { set with binding := .cpu unit }) := by
  simp only [migrate, setBinding, onSet, hFind]

theorem execute_eq
    (hFind : s.sets.find? handle = some set)
    {work : UInt64}
    {count : Count}
    (hWork : Count.ofWork? work = some count) :
    execute handle work s =
      .ok () (s.putSet handle (set.worked s.weight count)) := by
  simp only [execute, onSet, hFind, hWork]

theorem take_eq
    (hFind : s.sets.find? handle = some set)
    (hRunning : set.running = true)
    (change : SimulatedSet → SimulatedSet) :
    take handle change s =
      .ok set.counts (s.putSet handle (change set)) := by
  simp only [take, onSet, hFind, hRunning, if_true]

/- What a start that succeeds has found and left behind. -/
theorem start_cases
    (hFind : s.sets.find? handle = some set)
    {next : Simulated}
    (hStart : start handle s = .ok () next) :
    set.running = false ∧
      set.counters ≠ [] ∧
        next =
          s.putSet handle { set.zeroed with running := true } := by
  simp only [start, onSet, hFind] at hStart
  by_cases hRunning : set.running = true
  · simp [hRunning] at hStart
  · by_cases hEmpty : set.counters = []
    · simp [hRunning, hEmpty] at hStart
    · simp [hRunning, hEmpty] at hStart
      refine ⟨by simpa using hRunning, hEmpty, hStart.symm⟩

------------------------------------------------------------
-- Tallies
------------------------------------------------------------

/- What an amount of work counts for an event. -/
def tally
    (weight : EventCode → Count)
    (work : Nat)
    (code : EventCode) : Count :=
  Count.clamp ((weight code).toInt * work)

@[simp] theorem tally_zero
    (weight : EventCode → Count)
    (code : EventCode) :
    tally weight 0 code = 0 := by
  rw [tally, Int.natCast_zero, Int.mul_zero]
  rfl

theorem tally_zero_eq
    (weight : EventCode → Count) :
    tally weight 0 = fun _ => 0 := by
  funext code
  exact tally_zero weight code

/- The counts of an event do not leave the range. -/
def Within
    (weight : EventCode → Count)
    (work : Nat)
    (code : EventCode) : Prop :=
  ((weight code).toInt.natAbs * work : Int) ≤ Count.greatest

instance
    (weight : EventCode → Count)
    (work : Nat)
    (code : EventCode) :
    Decidable (Within weight work code) :=
  Int.decLe _ _

variable {weight : EventCode → Count}
variable {work more : Nat}
variable {code : EventCode}

theorem Within.mono
    (hWithin : Within weight more code)
    (hLess : work ≤ more) :
    Within weight work code := by
  unfold Within at hWithin ⊢
  have hProduct :
      (weight code).toInt.natAbs * work ≤
        (weight code).toInt.natAbs * more :=
    Nat.mul_le_mul_left _ hLess
  have hCast := Int.ofNat_le.mpr hProduct
  rw [Int.natCast_mul, Int.natCast_mul] at hCast
  exact Int.le_trans hCast hWithin

theorem natAbs_product
    (weight : EventCode → Count)
    (work : Nat)
    (code : EventCode) :
    (((weight code).toInt * work).natAbs : Int) =
      (weight code).toInt.natAbs * work := by
  rw [Int.natAbs_mul, Int.natAbs_natCast, Int.natCast_mul]

/- A tally that stays within the range is exact. -/
theorem toInt_tally
    (hWithin : Within weight work code) :
    (tally weight work code).toInt =
      (weight code).toInt * work := by
  have hProduct := natAbs_product weight work code
  unfold Within at hWithin
  unfold tally
  rw [Count.toInt_clamp_of_mem]
  · simp only [Count.least, Count.greatest] at hWithin ⊢
    omega
  · omega

/- Work that is done after other work adds its own tally. -/
theorem plus_times_tally
    (hWithin : Within weight (work + more) code)
    {count : Count}
    (hCount : count.toInt = more) :
    (tally weight work code).plus (count.times (weight code)) =
      tally weight (work + more) code := by
  have hBefore := toInt_tally (hWithin.mono (Nat.le_add_right _ _))
  have hAfter := toInt_tally hWithin
  have hMore :
      (count.times (weight code)).toInt =
        (weight code).toInt * more := by
    have hProduct := natAbs_product weight more code
    have hPart := hWithin.mono (Nat.le_add_left more work)
    unfold Within at hPart
    rw [Count.toInt_times, hCount, Int.mul_comm]
    simp only [Count.least, Count.greatest] at hPart ⊢
    omega
  have hLeast := Count.least_le_toInt
    (tally weight (work + more) code)
  have hGreatest := Count.toInt_le_greatest
    (tally weight (work + more) code)
  apply Int64.toInt_inj.mp
  rw [Int.natCast_add, Int.mul_add] at hAfter
  rw [Count.toInt_plus, hBefore, hMore]
  omega

/-
  Without negative weights, work adds its own tally wherever the
  counter has come to, also where it can not count any further.
-/
theorem plus_times_tally_of_nonneg
    (work : Nat)
    (hWeight : 0 ≤ (weight code).toInt)
    (hMore : (more : Int) ≤ Count.greatest) :
    (tally weight work code).plus
        ((Count.clamp more).times (weight code)) =
      tally weight (work + more) code := by
  have hBefore : 0 ≤ (weight code).toInt * work :=
    Int.mul_nonneg hWeight (Int.natCast_nonneg work)
  have hAdded : 0 ≤ (weight code).toInt * more :=
    Int.mul_nonneg hWeight (Int.natCast_nonneg more)
  have hClamp : (Count.clamp more).toInt = more := by
    apply Count.toInt_clamp_of_mem _ hMore
    simp only [Count.least]
    omega
  apply Int64.toInt_inj.mp
  rw [Count.toInt_plus, Count.toInt_times, hClamp, tally, tally,
    Count.toInt_clamp, Count.toInt_clamp, Int.natCast_add,
    Int.mul_add, Int.mul_comm (more : Int)]
  simp only [Count.least, Count.greatest]
  omega

theorem toInt_tally_nonneg
    (hWeight : 0 ≤ (weight code).toInt) :
    (tally weight work code).toInt =
      min ((weight code).toInt * work) Count.greatest := by
  have hProduct : 0 ≤ (weight code).toInt * work :=
    Int.mul_nonneg hWeight (Int.natCast_nonneg work)
  rw [tally, Count.toInt_clamp]
  simp only [Count.least, Count.greatest]
  omega

/- An event set that works goes on to the next tallies. -/
theorem worked_tally
    {codes : List EventCode}
    (hWithin : ∀ code ∈ codes, Within weight (work + more) code)
    {count : Count}
    (hCount : count.toInt = more)
    (binding : UnitBinding) :
    (SimulatedSet.counting codes (tally weight work)
        binding).worked weight count =
      SimulatedSet.counting codes (tally weight (work + more))
        binding := by
  rw [SimulatedSet.worked_counting, SimulatedSet.counting,
    SimulatedSet.counting]
  congr 1
  apply List.map_congr_left
  intro code hCode
  rw [plus_times_tally (hWithin code hCode) hCount]

end Simulated

end CoreTally
