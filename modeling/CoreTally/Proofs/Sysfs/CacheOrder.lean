import CoreTally.Proofs.SortedLists
import CoreTally.Topology.Sysfs
import Mathlib.Data.List.Perm.Basic

/-
  The order of caches is total, and only equal caches are level
  in it. So the list of all caches depends on nothing but which
  caches there are, and names each of them once.

  Key theorems include:
    * `Sysfs.Cache.order_eq_iff`
    * `Sysfs.mem_uniqueCaches_iff`
    * `Sysfs.nodup_uniqueCaches`
    * `Sysfs.uniqueCaches_congr`
-/

namespace CoreTally.Sysfs

------------------------------------------------------------
-- The Order of Caches
------------------------------------------------------------

namespace Cache

/- A missing size is the least one, as options are compared. -/
theorem compareSize_eq
    (size other : Option UInt64) :
    compareSize size other = compare size other := by
  cases size <;> cases other <;> rfl

/- The order compares four parts in turn. -/
theorem order_eq :
    order =
      compareLex (compareOn level)
        (compareLex (compareOn kind)
          (compareLex (compareOn size) (compareOn shared))) := by
  funext one other
  rw [order, compareSize_eq]
  rfl

instance : Std.TransCmp order := by
  rw [order_eq]
  infer_instance

/- Only equal caches are level. -/
theorem order_eq_iff
    (one other : Cache) :
    order one other = .eq ↔ one = other := by
  rcases one with ⟨level, kind, size, shared⟩
  rcases other with ⟨level', kind', size', shared'⟩
  simp [order_eq, compareLex_eq_eq, compareOn,
    Std.LawfulEqCmp.compare_eq_iff_eq]

end Cache

------------------------------------------------------------
-- All Caches
------------------------------------------------------------

/- The caches are those that some processor reports. -/
theorem mem_uniqueCaches_iff
    (cpus : List Cpu)
    (cache : Cache) :
    cache ∈ uniqueCaches cpus ↔
      ∃ cpu ∈ cpus, cache ∈ cpu.caches := by
  rw [uniqueCaches, SortedLists.mem_sortedItems_iff,
    List.mem_flatMap]

/- Each cache comes after all that are smaller. -/
theorem pairwise_uniqueCaches
    (cpus : List Cpu) :
    (uniqueCaches cpus).Pairwise fun one other =>
      (Cache.order one other).isLE = true ∧ one ≠ other := by
  apply SortedLists.pairwise_sortedItems
  · intro one other third
    exact Std.TransCmp.isLE_trans
  · intro one other
    rw [Bool.or_eq_true, ← @Std.OrientedCmp.isGE_iff_isLE _ _ _ one]
    cases Cache.order one other <;> simp
  · intro one other hLe hGe
    exact (Cache.order_eq_iff one other).mp
      (Std.OrientedCmp.isLE_antisymm hLe hGe)

theorem nodup_uniqueCaches
    (cpus : List Cpu) :
    (uniqueCaches cpus).Nodup :=
  (pairwise_uniqueCaches cpus).imp And.right

/- Processors that report the same caches have the same list. -/
theorem uniqueCaches_congr
    {cpus others : List Cpu}
    (hCaches :
      ∀ cache,
        (∃ cpu ∈ cpus, cache ∈ cpu.caches) ↔
          ∃ cpu ∈ others, cache ∈ cpu.caches) :
    uniqueCaches cpus = uniqueCaches others := by
  have hPerm : (uniqueCaches cpus).Perm (uniqueCaches others) := by
    rw [List.perm_ext_iff_of_nodup (nodup_uniqueCaches _)
      (nodup_uniqueCaches _)]
    intro cache
    rw [mem_uniqueCaches_iff, mem_uniqueCaches_iff]
    exact hCaches cache
  refine hPerm.eq_of_pairwise ?_ (pairwise_uniqueCaches cpus)
    (pairwise_uniqueCaches others)
  intro one other _ _ hLe hGe
  exact (Cache.order_eq_iff one other).mp
    (Std.OrientedCmp.isLE_antisymm hLe.1 hGe.1)

end CoreTally.Sysfs
