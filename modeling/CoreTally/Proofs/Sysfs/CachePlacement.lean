import CoreTally.Proofs.Sysfs.CacheReports
import CoreTally.Proofs.Sysfs.Grouping

/-
  Where the caches of a loaded topology hang. Each cache that is
  reported is one component, below the core or the chip that has
  all the processors that share it, or else below the machine.
  This is the lowest component that covers them.

  Key definitions include:
    * `Sysfs.sharers`
    * `Sysfs.Lodged`
    * `Sysfs.Covers`
    * `Sysfs.Portrays`
    * `Sysfs.Tiered`

  Key theorems include:
    * `Sysfs.lodged_cacheParent`
    * `Sysfs.Lodged.covers`
    * `Sysfs.caches_hang_at_lowest_cover`
-/

namespace CoreTally.Sysfs

open CoreTally.Topology

------------------------------------------------------------
-- Lowest Components
------------------------------------------------------------

/- The threads of the listed processors in a set. -/
def sharers
    (files : Files)
    (root : String)
    (t : Topology)
    (sharing : Set UInt32) : Set Nat :=
  {thread |
    ∃ name id,
      Listed files root name id ∧
        id ∈ sharing ∧ t.HasAt id .thread thread}

/-
  A component is where a cache belongs that some threads share:
  their only core, else their only chip, else the machine.
-/
inductive Lodged (t : Topology) (threads : Set Nat) : Nat → Prop
| inCore
    {core : Nat}
    (hSome : threads.Nonempty)
    (hCore :
      ∀ thread ∈ threads, ∃ chip, Housed t thread core chip) :
    Lodged t threads core
| inChip
    {chip one other core core' : Nat}
    (hOne : one ∈ threads)
    (hOther : other ∈ threads)
    (hHoused : Housed t one core chip)
    (hHoused' : Housed t other core' chip)
    (hApart : core ≠ core')
    (hChip :
      ∀ thread ∈ threads, ∃ core, Housed t thread core chip) :
    Lodged t threads chip
| apart
    {one other core core' chip chip' : Nat}
    (hOne : one ∈ threads)
    (hOther : other ∈ threads)
    (hHoused : Housed t one core chip)
    (hHoused' : Housed t other core' chip')
    (hApart : chip ≠ chip') :
    Lodged t threads rootNode
| unshared
    (hNone : threads = ∅) :
    Lodged t threads rootNode

/-
  A component covers the processors in a set. When there are any,
  none of the cores and chips directly below it covers them all.
-/
structure Covers
    (files : Files)
    (root : String)
    (t : Topology)
    (sharing : Set UInt32)
    (parent : Nat) : Prop where
  within :
    ∀ name id,
      Listed files root name id → id ∈ sharing →
        ∃ thread,
          t.HasAt id .thread thread ∧ t.Below parent thread
  lowest :
    (∃ name id, Listed files root name id ∧ id ∈ sharing) →
      ∀ child ∈ t.children parent,
        t.isOfKind .chip child = true ∨
            t.isOfKind .core child = true →
          ∃ thread ∈ sharers files root t sharing,
            ¬ t.Below child thread

/- A component is a cache as it is reported, where it belongs. -/
structure Portrays
    (files : Files)
    (root : String)
    (t : Topology)
    (report : Report)
    (node : Nat) : Prop where
  level :
    t.attribute? node "cache_level" =
      some (.uint report.level.toUInt64)
  kind :
    t.attribute? node "cache_type" = some (.text report.kind)
  size :
    t.attribute? node "cache_size" = report.size.map .uint
  place :
    ∃ parent,
      t.parent? node = some parent ∧
        Lodged t (sharers files root t report.sharing) parent ∧
        Covers files root t report.sharing parent

------------------------------------------------------------
-- Tiers
------------------------------------------------------------

/- Chips hang below the machine, and cores below chips. -/
structure Tiered (t : Topology) : Prop extends Forest t where
  machine : t.HasAt 0 .node rootNode
  top : t.parent? rootNode = none
  chip :
    ∀ node,
      t.isOfKind .chip node = true → t.parent? node = some rootNode
  core :
    ∀ node,
      t.isOfKind .core node = true →
        ∃ chip,
          t.parent? node = some chip ∧
            t.isOfKind .chip chip = true

section Tiers

variable {t : Topology}

/- A component has one kind. -/
theorem kind_unique
    {node : Nat}
    {kind other : ComponentKind}
    (hKind : t.isOfKind kind node = true)
    (hOther : t.isOfKind other node = true) :
    kind = other := by
  rcases (isOfKind_iff _ _ _).mp hKind with ⟨id, hHas⟩
  rcases (isOfKind_iff _ _ _).mp hOther with ⟨id', hHas'⟩
  exact (hHas.unique hHas').2

variable (hTiered : Tiered t)
include hTiered

theorem Tiered.isNode :
    t.isOfKind .node rootNode = true :=
  (isOfKind_iff _ _ _).mpr ⟨0, hTiered.machine⟩

/- Below the machine there are chips, and below a chip cores. -/
theorem Tiered.tier
    {parent child : Nat}
    (hChild : child ∈ t.children parent)
    (hKind :
      t.isOfKind .chip child = true ∨
        t.isOfKind .core child = true) :
    (t.isOfKind .chip child = true ∧ parent = rootNode) ∨
      (t.isOfKind .core child = true ∧
        t.isOfKind .chip parent = true) := by
  have hParent := (hTiered.parent_iff parent child).mpr hChild
  rcases hKind with hChip | hCore
  · have hTop := hTiered.chip child hChip
    rw [hParent] at hTop
    exact .inl ⟨hChip, Option.some.inj hTop⟩
  · rcases hTiered.core child hCore with ⟨chip, hIn, hChip⟩
    rw [hParent] at hIn
    cases Option.some.inj hIn
    exact .inr ⟨hCore, hChip⟩

/- A component lies below its parent, and what that lies below. -/
theorem Tiered.below_tail
    {node parent child : Nat}
    (hBelow : t.Below node parent)
    (hParent : t.parent? child = some parent) :
    t.Below node child :=
  hBelow.tail ((hTiered.parent_iff parent child).mp hParent)

/- What is above a component is the component, or above its parent. -/
theorem Tiered.above
    {node parent child : Nat}
    (hBelow : t.Below node child)
    (hParent : t.parent? child = some parent) :
    node = child ∨ t.Below node parent := by
  rcases Relation.ReflTransGen.cases_tail hBelow with
    rfl | ⟨last, hLast, hChild⟩
  · exact .inl rfl
  · have hLastParent := (hTiered.parent_iff last child).mpr hChild
    rw [hParent] at hLastParent
    cases Option.some.inj hLastParent
    exact .inr hLast

variable {thread core chip : Nat}
variable (hHoused : Housed t thread core chip)
include hHoused

theorem Housed.below_core :
    t.Below core thread :=
  hTiered.below_tail .refl hHoused.inCore

theorem Housed.below_chip :
    t.Below chip thread :=
  hTiered.below_tail
    (hTiered.below_tail .refl hHoused.inChip) hHoused.inCore

theorem Housed.below_root :
    t.Below rootNode thread :=
  hTiered.below_tail
    (hTiered.below_tail
      (hTiered.below_tail .refl hHoused.inMachine)
      hHoused.inChip)
    hHoused.inCore

/- Four components lie above a thread. -/
theorem Housed.above
    {node : Nat}
    (hBelow : t.Below node thread) :
    node = thread ∨ node = core ∨ node = chip ∨
      node = rootNode := by
  rcases hTiered.above hBelow hHoused.inCore with hThread | hBelow
  · exact .inl hThread
  rcases hTiered.above hBelow hHoused.inChip with hCore | hBelow
  · exact .inr (.inl hCore)
  rcases hTiered.above hBelow hHoused.inMachine with hChip | hBelow
  · exact .inr (.inr (.inl hChip))
  · have hRoot := Below.le hTiered.toForest hBelow
    exact .inr (.inr (.inr (Nat.le_zero.mp hRoot)))

variable (hThread : t.isOfKind .thread thread = true)
include hThread

/- The core above a thread is the one that it is housed in. -/
theorem Housed.core_eq
    {node : Nat}
    (hCore : t.isOfKind .core node = true)
    (hBelow : t.Below node thread) :
    node = core := by
  rcases hHoused.above hTiered hBelow with rfl | hSame | rfl | rfl
  · exact absurd (kind_unique hCore hThread) (by decide)
  · exact hSame
  · exact absurd (kind_unique hCore hHoused.isChip) (by decide)
  · exact absurd (kind_unique hCore hTiered.isNode) (by decide)

/- The chip above a thread is the one that it is housed in. -/
theorem Housed.chip_eq
    {node : Nat}
    (hChip : t.isOfKind .chip node = true)
    (hBelow : t.Below node thread) :
    node = chip := by
  rcases hHoused.above hTiered hBelow with rfl | rfl | hSame | rfl
  · exact absurd (kind_unique hChip hThread) (by decide)
  · exact absurd (kind_unique hChip hHoused.isCore) (by decide)
  · exact hSame
  · exact absurd (kind_unique hChip hTiered.isNode) (by decide)

end Tiers

------------------------------------------------------------
-- The Lowest Cover
------------------------------------------------------------

section Cover

variable {files : Files}
variable {root : String}
variable {t : Topology}
variable {sharing : Set UInt32}

theorem isThread_of_sharer
    {thread : Nat}
    (hThread : thread ∈ sharers files root t sharing) :
    t.isOfKind .thread thread = true := by
  rcases hThread with ⟨_, id, -, -, hHas⟩
  exact (isOfKind_iff _ _ _).mpr ⟨id, hHas⟩

variable {parent : Nat}
variable
  (hLodged : Lodged t (sharers files root t sharing) parent)
variable (hTiered : Tiered t)
include hLodged hTiered

/- All threads that share a cache lie below its parent. -/
theorem Lodged.below
    {thread core chip : Nat}
    (hThread : thread ∈ sharers files root t sharing)
    (hHoused : Housed t thread core chip) :
    t.Below parent thread := by
  cases hLodged with
  | inCore hSome hCore =>
      rcases hCore thread hThread with ⟨chip, hHoused⟩
      exact hHoused.below_core hTiered
  | inChip _ _ _ _ _ hChip =>
      rcases hChip thread hThread with ⟨core, hHoused⟩
      exact hHoused.below_chip hTiered
  | apart => exact hHoused.below_root hTiered
  | unshared => exact hHoused.below_root hTiered

/- No core or chip directly below the parent has all of them. -/
theorem Lodged.lowest
    (hSome : (sharers files root t sharing).Nonempty)
    {child : Nat}
    (hChild : child ∈ t.children parent)
    (hKind :
      t.isOfKind .chip child = true ∨
        t.isOfKind .core child = true) :
    ∃ thread ∈ sharers files root t sharing,
      ¬ t.Below child thread := by
  have hTier := hTiered.tier hChild hKind
  cases hLodged with
  | inCore _ hCore =>
      rcases hSome with ⟨thread, hThread⟩
      rcases hCore thread hThread with ⟨chip, hHoused⟩
      rcases hTier with ⟨-, rfl⟩ | ⟨-, hChip⟩
      · exact absurd
          (kind_unique hHoused.isCore hTiered.isNode) (by decide)
      · exact absurd (kind_unique hHoused.isCore hChip) (by decide)
  | inChip hOne hOther hHoused hHoused' hApart _ =>
      rcases hTier with ⟨-, rfl⟩ | ⟨hCore, -⟩
      · exact absurd
          (kind_unique hHoused.isChip hTiered.isNode) (by decide)
      · -- The child would be the core of both threads.
        by_contra hAll
        push Not at hAll
        apply hApart
        rw [← hHoused.core_eq hTiered (isThread_of_sharer hOne)
            hCore (hAll _ hOne),
          ← hHoused'.core_eq hTiered (isThread_of_sharer hOther)
            hCore (hAll _ hOther)]
  | apart hOne hOther hHoused hHoused' hApart =>
      rcases hTier with ⟨hChip, -⟩ | ⟨-, hChip⟩
      · -- The child would be the chip of both threads.
        by_contra hAll
        push Not at hAll
        apply hApart
        rw [← hHoused.chip_eq hTiered (isThread_of_sharer hOne)
            hChip (hAll _ hOne),
          ← hHoused'.chip_eq hTiered (isThread_of_sharer hOther)
            hChip (hAll _ hOther)]
      · exact absurd (kind_unique hChip hTiered.isNode) (by decide)
  | unshared hNone =>
      rw [hNone] at hSome
      exact absurd hSome Set.not_nonempty_empty

/-
  Where a cache belongs is the lowest component that covers the
  threads that share it.
-/
theorem Lodged.covers
    (hThreads :
      ∀ name id,
        Listed files root name id →
          ∃ thread, t.HasAt id .thread thread)
    (hHoused :
      ∀ thread ∈ sharers files root t sharing,
        ∃ core chip, Housed t thread core chip) :
    Covers files root t sharing parent := by
  constructor
  · intro name id hListed hShared
    rcases hThreads name id hListed with ⟨thread, hHas⟩
    have hThread : thread ∈ sharers files root t sharing :=
      ⟨name, id, hListed, hShared, hHas⟩
    rcases hHoused thread hThread with ⟨_, _, hHoused⟩
    exact ⟨thread, hHas, hLodged.below hTiered hThread hHoused⟩
  · rintro ⟨name, id, hListed, hShared⟩ child hChild hKind
    rcases hThreads name id hListed with ⟨thread, hHas⟩
    exact hLodged.lowest hTiered
      ⟨thread, name, id, hListed, hShared, hHas⟩ hChild hKind

end Cover

------------------------------------------------------------
-- The Parent of a Cache
------------------------------------------------------------

section Parent

variable {files : Files}
variable {root : String}
variable {cpus : List Cpu}
variable {caches : List Nat}
variable {a : Assembly}
variable
  (hHolds :
    a.Holds (cpus.map Cpu.package) (cpus.map Cpu.site) cpus caches)

/- A thread is housed where its site is remembered. -/
structure Sits
    (a : Assembly)
    (site : UInt32 × UInt32)
    (thread core chip : Nat) : Prop where
  isCore : (site, core) ∈ a.cores
  isChip : (site.1, chip) ∈ a.chips
  housed : Housed a.topology thread core chip

/- Some threads sit at the given sites, and nowhere else. -/
structure Occupies
    (a : Assembly)
    (threads : Set Nat)
    (sites : List (UInt32 × UInt32)) : Prop where
  thread :
    ∀ thread ∈ threads,
      ∃ site ∈ sites, ∃ core chip, Sits a site thread core chip
  site :
    ∀ site ∈ sites,
      ∃ thread ∈ threads, ∃ core chip, Sits a site thread core chip

section Occupied

variable {threads : Set Nat}
variable {sites : List (UInt32 × UInt32)}

theorem Occupies.congr
    (hOccupies : Occupies a threads sites)
    {others : List (UInt32 × UInt32)}
    (hSites : ∀ site, site ∈ others ↔ site ∈ sites) :
    Occupies a threads others := by
  constructor
  · intro thread hThread
    rcases hOccupies.thread thread hThread with
      ⟨site, hSite, hSits⟩
    exact ⟨site, (hSites site).mpr hSite, hSits⟩
  · intro site hSite
    exact hOccupies.site site ((hSites site).mp hSite)

/- Without a site there is no thread. -/
theorem Occupies.lodged_nil
    (hOccupies : Occupies a threads []) :
    Lodged a.topology threads rootNode := by
  apply Lodged.unshared
  apply Set.eq_empty_of_forall_notMem
  intro thread hThread
  rcases hOccupies.thread thread hThread with ⟨site, hSite, -⟩
  contradiction

include hHolds

/- All threads at one site are in its core. -/
theorem Occupies.lodged_core
    {site : UInt32 × UInt32}
    (hOccupies : Occupies a threads [site]) :
    Lodged a.topology threads
      ((a.cores.lookup site).getD rootNode) := by
  rcases hOccupies.site site (List.mem_singleton_self _) with
    ⟨thread, hThread, core, chip, hSits⟩
  rw [KeyedLists.lookup_of_mem (nodup_sites hHolds) hSits.isCore,
    Option.getD_some]
  apply Lodged.inCore ⟨thread, hThread⟩
  intro thread' hThread'
  rcases hOccupies.thread thread' hThread' with
    ⟨site', hSite, core', chip', hSits'⟩
  have hSame : site' = site := List.mem_singleton.mp hSite
  rw [(core_eq_iff hHolds hSits.isCore hSits'.isCore).mpr
    hSame.symm]
  exact ⟨chip', hSits'.housed⟩

variable (hOccupies : Occupies a threads sites)
variable {site other : UInt32 × UInt32}
variable (hSite : site ∈ sites)
variable (hOther : other ∈ sites)
include hOccupies hSite hOther

/- All threads at several sites of a package are in its chip. -/
theorem Occupies.lodged_chip
    (hDiffer : site ≠ other)
    {package : UInt32}
    (hPackage : ∀ site ∈ sites, site.1 = package) :
    Lodged a.topology threads
      ((a.chips.lookup package).getD rootNode) := by
  rcases hOccupies.site site hSite with
    ⟨thread, hThread, core, chip, hSits⟩
  rcases hOccupies.site other hOther with
    ⟨thread', hThread', core', chip', hSits'⟩
  have hChip := hSits.isChip
  rw [hPackage site hSite] at hChip
  have hSame :
      ∀ {site thread core chip'},
        site ∈ sites → Sits a site thread core chip' →
          chip' = chip := by
    intro site thread core chip' hSite hSits
    apply (chip_eq_iff hHolds hSits.isChip hChip).mpr
    exact hPackage site hSite
  rw [KeyedLists.lookup_of_mem (nodup_packages hHolds) hChip,
    Option.getD_some]
  have hHoused' := hSits'.housed
  rw [hSame hOther hSits'] at hHoused'
  refine Lodged.inChip hThread hThread' hSits.housed hHoused' ?_ ?_
  · rw [Ne, core_eq_iff hHolds hSits.isCore hSits'.isCore]
    exact hDiffer
  · intro one hOne
    rcases hOccupies.thread one hOne with
      ⟨third, hThird, core'', chip'', hSits''⟩
    have hHoused := hSits''.housed
    rw [hSame hThird hSits''] at hHoused
    exact ⟨core'', hHoused⟩

/- Threads in several packages are in several chips. -/
theorem Occupies.lodged_apart
    (hDiffer : site.1 ≠ other.1) :
    Lodged a.topology threads rootNode := by
  rcases hOccupies.site site hSite with
    ⟨thread, hThread, core, chip, hSits⟩
  rcases hOccupies.site other hOther with
    ⟨thread', hThread', core', chip', hSits'⟩
  refine Lodged.apart hThread hThread' hSits.housed
    hSits'.housed ?_
  rw [Ne, chip_eq_iff hHolds hSits.isChip hSits'.isChip]
  exact hDiffer

end Occupied

theorem tiered_of_holds
    (hHolds :
      a.Holds (cpus.map Cpu.package) (cpus.map Cpu.site) cpus
        caches) :
    Tiered a.topology where
  toForest := hHolds.rooted.toForest
  machine := hHolds.machine
  top := hHolds.rooted.parent?_zero
  chip := by
    intro node hChip
    have hMem :=
      (mem_ofKind_iff _ _).mpr ((isOfKind_iff _ _ _).mp hChip)
    rw [hHolds.chips] at hMem
    rcases List.mem_map.mp hMem with ⟨⟨package, _⟩, hEntry, rfl⟩
    exact (hHolds.chip package _ hEntry).2
  core := by
    intro node hCore
    have hMem :=
      (mem_ofKind_iff _ _).mpr ((isOfKind_iff _ _ _).mp hCore)
    rw [hHolds.cores] at hMem
    rcases List.mem_map.mp hMem with ⟨⟨site, _⟩, hEntry, rfl⟩
    rcases hHolds.exists_core hEntry with
      ⟨_, chip, hChip, -, hParent⟩
    exact ⟨chip, hParent,
      (isOfKind_iff _ _ _).mpr ⟨_, (hHolds.chip _ _ hChip).1⟩⟩

section Owners

variable (hSurvey : Surveyed files root cpus)
include hSurvey

/- A number belongs to one processor. -/
theorem Surveyed.cpu_eq
    {cpu other : Cpu}
    (hCpu : cpu ∈ cpus)
    (hOther : other ∈ cpus)
    (hId : cpu.id = other.id) :
    cpu = other := by
  have hNodup : (cpus.map Cpu.id).Nodup :=
    List.pairwise_map.mpr
      (hSurvey.ascending.imp UInt32.ne_of_lt)
  exact List.inj_on_of_nodup_map hNodup hCpu hOther hId

theorem Surveyed.owner?_eq_some_iff
    (id : UInt32)
    (site : UInt32 × UInt32) :
    Assembly.owner? cpus id = some site ↔
      ∃ cpu ∈ cpus, cpu.id = id ∧ cpu.site = site := by
  rw [Assembly.owner?, Option.map_eq_some_iff]
  constructor
  · rintro ⟨cpu, hFind, rfl⟩
    have hCpu := List.mem_of_find?_eq_some hFind
    have hId := List.find?_some hFind
    rw [beq_iff_eq] at hId
    exact ⟨cpu, List.mem_reverse.mp hCpu, hId, rfl⟩
  · rintro ⟨cpu, hCpu, rfl, rfl⟩
    rcases hFind : cpus.reverse.find? fun other =>
      other.id == cpu.id with _ | other
    · rw [List.find?_eq_none] at hFind
      exact absurd (beq_self_eq_true cpu.id)
        (hFind cpu (List.mem_reverse.mpr hCpu))
    · have hOther := List.mem_of_find?_eq_some hFind
      have hId := List.find?_some hFind
      rw [beq_iff_eq] at hId
      rw [hSurvey.cpu_eq (List.mem_reverse.mp hOther) hCpu hId]
        at hFind
      exact ⟨cpu, hFind, rfl⟩

/- The sites of a set of numbers are those of its processors. -/
theorem Surveyed.mem_owners_iff
    (shared : List UInt32)
    (site : UInt32 × UInt32) :
    site ∈ shared.filterMap (Assembly.owner? cpus) ↔
      ∃ cpu ∈ cpus, cpu.id ∈ shared ∧ cpu.site = site := by
  rw [List.mem_filterMap]
  simp only [hSurvey.owner?_eq_some_iff]
  constructor
  · rintro ⟨_, hShared, cpu, hCpu, rfl, hSite⟩
    exact ⟨cpu, hCpu, hShared, hSite⟩
  · rintro ⟨cpu, hCpu, hShared, hSite⟩
    exact ⟨cpu.id, hShared, cpu, hCpu, rfl, hSite⟩

include hHolds

/- The threads that share a cache sit at the sites of its owners. -/
theorem occupies_owners
    (shared : List UInt32) :
    Occupies a
      (sharers files root a.topology {id | id ∈ shared})
      (shared.filterMap (Assembly.owner? cpus)) := by
  constructor
  · rintro thread ⟨name, id, hListed, hShared, hHas⟩
    rcases exists_cpu_of_thread hHolds hHas with
      ⟨cpu, hCpu, rfl, core, hCore, hParent⟩
    rcases exists_housed hHolds hCore hParent with
      ⟨chip, hChip, hHoused⟩
    have hSite :=
      (hSurvey.mem_owners_iff shared cpu.site).mpr
        ⟨cpu, hCpu, hShared, rfl⟩
    exact ⟨cpu.site, hSite, core, chip, hCore, hChip, hHoused⟩
  · intro site hSite
    rcases (hSurvey.mem_owners_iff shared site).mp hSite with
      ⟨cpu, hCpu, hShared, rfl⟩
    rcases KeyedLists.exists_image hHolds.threads hCpu with
      ⟨thread, -, core, hCore, hHas, hParent⟩
    rcases exists_housed hHolds hCore hParent with
      ⟨chip, hChip, hHoused⟩
    rcases (hSurvey.mem_iff cpu).mp hCpu with ⟨name, hDepicts⟩
    exact ⟨thread,
      ⟨name, cpu.id, hDepicts.toListed, hShared, hHas⟩,
      core, chip, hCore, hChip, hHoused⟩

/- A cache hangs where it belongs. -/
theorem lodged_cacheParent
    (cache : Cache) :
    Lodged a.topology
      (sharers files root a.topology {id | id ∈ cache.shared})
      (a.cacheParent cpus cache) := by
  have hOccupies := occupies_owners hHolds hSurvey cache.shared
  rw [Assembly.cacheParent]
  generalize cache.shared.filterMap (Assembly.owner? cpus) = sites
    at hOccupies ⊢
  have hOwners : Occupies a _ sites.eraseDups :=
    hOccupies.congr fun _ => List.mem_eraseDups
  have hNodup := KeyedLists.nodup_eraseDups sites
  generalize sites.eraseDups = owners at hOwners hNodup ⊢
  rcases owners with _ | ⟨site, _ | ⟨other, rest⟩⟩
  · exact hOwners.lodged_nil
  · exact hOwners.lodged_core hHolds
  · have hPackages :=
      KeyedLists.nodup_eraseDups
        ((site :: other :: rest).map Prod.fst)
    have hMem :
        ∀ package,
          package ∈
              ((site :: other :: rest).map Prod.fst).eraseDups ↔
            ∃ owner ∈ site :: other :: rest,
              owner.1 = package := by
      intro package
      rw [List.mem_eraseDups, List.mem_map]
    generalize
      ((site :: other :: rest).map Prod.fst).eraseDups = packages
      at hPackages hMem ⊢
    rcases packages with _ | ⟨package, _ | ⟨package', more⟩⟩
    · have hAbsent := (hMem site.1).mpr ⟨site, by simp, rfl⟩
      contradiction
    · have hDiffer : site ≠ other := by
        rintro rfl
        simp at hNodup
      apply Occupies.lodged_chip hHolds hOwners
        List.mem_cons_self (by simp) hDiffer
      intro owner hOwner
      exact List.mem_singleton.mp
        ((hMem owner.1).mpr ⟨owner, hOwner, rfl⟩)
    · have hDiffer : package ≠ package' := by
        rintro rfl
        simp at hPackages
      rcases (hMem package).mp (by simp) with ⟨one, hOne, rfl⟩
      rcases (hMem package').mp (by simp) with
        ⟨another, hAnother, rfl⟩
      exact Occupies.lodged_apart hHolds hOwners hOne hAnother
        hDiffer

/- A component that shows a cache portrays its report. -/
theorem portrays_of_shows
    {cache : Cache}
    {node : Nat}
    (hShows : a.Shows cpus cache node) :
    Portrays files root a.topology cache.report node := by
  have hTiered := tiered_of_holds hHolds
  have hOccupies := occupies_owners hHolds hSurvey cache.shared
  have hLodged := lodged_cacheParent hHolds hSurvey cache
  have hThreads :
      ∀ name id,
        Listed files root name id →
          ∃ thread, a.topology.HasAt id .thread thread := by
    intro name id hListed
    rcases hSurvey.exists_cpu hListed with ⟨cpu, hCpu, rfl⟩
    rcases KeyedLists.exists_image hHolds.threads hCpu with
      ⟨thread, -, _, -, hHangs⟩
    exact ⟨thread, hHangs.1⟩
  have hHoused :
      ∀ thread ∈
          sharers files root a.topology {id | id ∈ cache.shared},
        ∃ core chip, Housed a.topology thread core chip := by
    intro thread hThread
    rcases hOccupies.thread thread hThread with
      ⟨_, -, core, chip, hSits⟩
    exact ⟨core, chip, hSits.housed⟩
  rcases hShows.hangs with ⟨_, -, hParent⟩
  exact
    { level := hShows.level
      kind := hShows.kind
      size := hShows.size
      place :=
        ⟨_, hParent, hLodged,
          hLodged.covers hTiered hThreads hHoused⟩ }

end Owners

end Parent

------------------------------------------------------------
-- Two Cores
------------------------------------------------------------

/-
  Two cores in one chip. The first one has a cache whose list of
  processors is malformed, and the second one has a cache that it
  shares with the first one and with a processor that is offline.
-/
def twoCores : Files where
  root := .directory
    [("cpu", .directory
      [("cpu0", processorTree "0\n" "0\n"
          [("index0", .directory
            [("level", .text "1\n"), ("type", .text "Data\n"),
              ("size", .text "32K\n"),
              ("shared_cpu_list", .text "none\n")])]),
        ("cpu7", .directory [("online", .text "0\n")]),
        ("cpu1", processorTree "0\n" "1\n"
          [("index2", .directory
            [("level", .text "2\n"),
              ("shared_cpu_list", .text "0-1,7\n")])])])]

theorem list_twoCores :
    twoCores.list "/cpu" = .ok ["cpu0", "cpu7", "cpu1"] := by
  decide +kernel

theorem unambiguous_twoCores :
    Unambiguous ["cpu0", "cpu7", "cpu1"] := by
  rw [unambiguous_iff]
  decide +kernel

/- The caches of the two cores, as they are read. -/
def dataCache : Cache :=
  ⟨1, "Data", some 32768, [0]⟩

def sharedCache : Cache :=
  ⟨2, "Unified", none, [0, 1, 7]⟩

theorem readCache?_twoCores :
    readCache? twoCores 1 "/cpu/cpu1/cache/index2" =
      some sharedCache := by
  have hSays :
      readTrimmed? twoCores
          "/cpu/cpu1/cache/index2/shared_cpu_list" =
        some "0-1,7".toList := by
    decide +kernel
  have hRanges :
      (CpuList.rangesOf "0-1,7").flatMap CpuList.Range.toList =
        [0, 1, 7] := by
    decide +kernel
  have hShared :
      sharing? twoCores "/cpu/cpu1/cache/index2/shared_cpu_list" =
        some [0, 1, 7] := by
    rw [sharing?, hSays, Option.bind_some, String.ofList_toList,
      CpuList.parse?_eq, if_pos (by decide +kernel), hRanges,
      CpuList.ascending, List.mergeSort_of_pairwise (by decide)]
    rfl
  exact (readCache?_eq_some_iff _ _ _).mpr
    ⟨by decide +kernel, by decide +kernel, by decide +kernel,
      (congrArg (Option.getD · [1]) hShared).symm⟩

/- The two processors, each with its own cache. -/
def twoCpus : List Cpu :=
  [⟨0, 0, 0, none, [dataCache]⟩, ⟨1, 0, 1, none, [sharedCache]⟩]

theorem survey_twoCores :
    survey twoCores "/cpu" ["cpu0", "cpu7", "cpu1"] = twoCpus := by
  have hFirst :
      readCpu? twoCores "/cpu" "cpu0" =
        some ⟨0, 0, 0, none, [dataCache]⟩ := by
    decide +kernel
  have hOffline : readCpu? twoCores "/cpu" "cpu7" = none := by
    decide +kernel
  have hCaches :
      readCaches twoCores 1 "/cpu/cpu1/cache" = [sharedCache] := by
    have hIndices :
        twoCores.list "/cpu/cpu1/cache" = .ok ["index2"] := by
      decide +kernel
    have hIndex : (after? "index" "index2").isSome = true := by
      decide +kernel
    have hPath :
        Path.join "/cpu/cpu1/cache" "index2" =
          "/cpu/cpu1/cache/index2" := by
      decide +kernel
    simp [readCaches, hIndices, hIndex, hPath, readCache?_twoCores]
  have hSecond :
      Depicts twoCores "/cpu" "cpu1"
        ⟨1, 0, 1, none, [sharedCache]⟩ :=
    { entry := ⟨_, list_twoCores, by decide⟩
      number := (denotes_iff _ _).mpr (by decide +kernel)
      online := (online_iff _).mpr (by decide +kernel)
      inPackage := (stated_iff _ _ _ _).mpr (by decide +kernel)
      inCore := (stated_iff _ _ _ _).mpr (by decide +kernel)
      frequency := (frequency_iff _ _).mpr (by decide +kernel)
      caches := by
        have hPath :
            Path.join (Path.join "/cpu" "cpu1") "cache" =
              "/cpu/cpu1/cache" := by
          decide +kernel
        rw [hPath, hCaches] }
  apply survey_eq unambiguous_twoCores (by decide)
  simp [twoCpus, hFirst, hOffline,
    ((depicts_iff list_twoCores _).mp hSecond).2]

/- The two caches differ, and they are in order already. -/
theorem uniqueCaches_twoCpus :
    uniqueCaches twoCpus = [dataCache, sharedCache] := by
  have hAll : twoCpus.flatMap Cpu.caches = [dataCache, sharedCache] :=
    rfl
  rw [uniqueCaches, hAll,
    List.mergeSort_of_pairwise (by decide +kernel)]
  decide +kernel

------------------------------------------------------------
-- Loaded Topologies
------------------------------------------------------------

/-
  As long as no two names of processors denote the same number,
  each cache that a listed processor reports is one component of
  what is loaded, and there are no other caches. It hangs below
  the core or the chip that all threads sharing it have in common,
  or else below the machine, which is the lowest component that
  covers them.
-/
theorem caches_hang_at_lowest_cover
    (files : Files)
    (root : String)
    (meminfo : Option String)
    (hNames :
      ∀ names, files.list root = .ok names → Unambiguous names)
    (t : Topology)
    (hLoad : load files root meminfo = .ok t) :
    ∃ reports : List Report,
      reports.Nodup ∧
        (∀ report,
          report ∈ reports ↔ Reported files root report) ∧
        List.Forall₂ (Portrays files root t) reports
          (t.ofKind .cache) := by
  rcases exists_assembly_of_load hNames hLoad with
    ⟨cpus, a, caches, hSurvey, rfl, hHolds, hShown⟩
  refine ⟨(uniqueCaches cpus).map Cache.report,
    nodup_reports hSurvey, ?_, ?_⟩
  · intro report
    rw [reported_iff hSurvey, List.mem_map]
  · rw [hHolds.caches, List.forall₂_map_left_iff]
    exact hShown.imp fun _ _ => portrays_of_shows hHolds hSurvey

/-
  The cache whose list is malformed hangs below its core, and the
  one that both cores share below their chip.
-/
theorem caches_hang_at_lowest_cover_two_cores :
    ∃ (t : Topology) (reports : List Report),
      load twoCores "/cpu" none = .ok t ∧
        ⟨1, "Data", some 32768, {0}⟩ ∈ reports ∧
        ⟨2, "Unified", none, {0, 1, 7}⟩ ∈ reports ∧
        reports.Nodup ∧
        (∀ report,
          report ∈ reports ↔ Reported twoCores "/cpu" report) ∧
        List.Forall₂ (Portrays twoCores "/cpu" t) reports
          (t.ofKind .cache) ∧
        t.components.toList.map
            (fun one => (one.name, one.parent)) =
          [("machine", none), ("package 0", some 0),
            ("core 0", some 1), ("cpu 0", some 2),
            ("core 1", some 1), ("cpu 1", some 4),
            ("L1 data cache", some 2),
            ("L2 unified cache", some 1)] := by
  have hNames :
      ∀ names, twoCores.list "/cpu" = .ok names →
        Unambiguous names := by
    intro names hNames
    rw [list_twoCores] at hNames
    exact Except.ok.inj hNames ▸ unambiguous_twoCores
  have hLoad :
      load twoCores "/cpu" none = .ok (assemble none twoCpus) := by
    rw [load_of_list list_twoCores, survey_twoCores]
    rfl
  have hSurveyed : Surveyed twoCores "/cpu" twoCpus :=
    survey_twoCores ▸
      surveyed_of_list list_twoCores unambiguous_twoCores
  have hReported :
      ∀ cache ∈ [dataCache, sharedCache],
        Reported twoCores "/cpu" cache.report := by
    intro cache hCache
    rw [← uniqueCaches_twoCpus] at hCache
    exact (reported_iff hSurveyed _).mpr ⟨cache, hCache, rfl⟩
  have hData :
      dataCache.report = ⟨1, "Data", some 32768, {0}⟩ := by
    simp [Cache.report, dataCache]
  have hShared :
      sharedCache.report = ⟨2, "Unified", none, {0, 1, 7}⟩ := by
    simp [Cache.report, sharedCache, Set.ext_iff]
  rcases caches_hang_at_lowest_cover twoCores "/cpu" none hNames _
    hLoad with ⟨reports, hNodup, hReports, hPortrays⟩
  refine ⟨assemble none twoCpus, reports, hLoad, ?_, ?_, hNodup,
    hReports, hPortrays, ?_⟩
  · rw [hReports, ← hData]
    exact hReported _ (by simp)
  · rw [hReports, ← hShared]
    exact hReported _ (by simp)
  · rw [assemble, uniqueCaches_twoCpus]
    decide +kernel

end CoreTally.Sysfs
