import CoreTally.Proofs.Sysfs.Assembly
import CoreTally.Proofs.Sysfs.ListingOrder
import Mathlib.Data.List.Perm.Subperm

/-
  How the threads of a loaded topology are grouped. They are the
  listed processors in ascending order, and each of them hangs
  below the core and the socket that its files state. Cores are
  numbered in the order of their lowest processor.

  Key definitions include:
    * `Sysfs.Housed`
    * `Sysfs.Seated`
    * `Sysfs.Grouped`

  Key theorems include:
    * `Sysfs.Seated.remembered`
    * `Sysfs.exists_seat`
    * `Sysfs.grouped_assembly`
    * `Sysfs.exists_assembly_of_load`
    * `Sysfs.loaded_topologies_are_grouped`
-/

namespace CoreTally

------------------------------------------------------------
-- Groups
------------------------------------------------------------

namespace Sysfs

open CoreTally.Topology

/- A thread hangs below a core, in a chip, in the machine. -/
structure Housed (t : Topology) (thread core chip : Nat) : Prop where
  inCore : t.parent? thread = some core
  isCore : t.isOfKind .core core = true
  inChip : t.parent? core = some chip
  isChip : t.isOfKind .chip chip = true
  inMachine : t.parent? chip = some rootNode

/-
  A thread stands for a listed processor, whose files state a
  socket and a core, and it is housed somewhere.
-/
structure Seated
    (files : Files)
    (root : String)
    (t : Topology)
    (package core : UInt32)
    (thread coreNode chipNode : Nat) : Prop where
  processor :
    ∃ name id,
      Sited files root name id package core ∧
        t.HasAt id .thread thread
  housed : Housed t thread coreNode chipNode

/-
  The threads are the listed processors in ascending order, each
  of them in the core and in the chip it belongs to. The cores
  are numbered from zero by their lowest thread.
-/
structure Grouped
    (files : Files)
    (root : String)
    (t : Topology) : Prop where
  machine : t.HasAt 0 .node rootNode ∧ t.parent? rootNode = none
  threads :
    ∃ ids : List UInt32,
      ids.Pairwise (· < ·) ∧
        (∀ name id, Listed files root name id → id ∈ ids) ∧
        (∀ id ∈ ids, ∃! name, Listed files root name id) ∧
        List.Forall₂ (fun id thread => t.HasAt id .thread thread)
          ids (t.ofKind .thread)
  seated :
    ∀ thread ∈ t.ofKind .thread,
      ∃ package core coreNode chipNode,
        Seated files root t package core thread coreNode chipNode
  shared :
    ∀ {package core thread coreNode chipNode
        package' core' thread' coreNode' chipNode'},
      Seated files root t package core thread coreNode chipNode →
        Seated files root t package' core' thread' coreNode'
          chipNode' →
          (coreNode = coreNode' ↔
              (package, core) = (package', core')) ∧
            (chipNode = chipNode' ↔ package = package')
  cores :
    ∃ lowest : List UInt32,
      lowest.Pairwise (· < ·) ∧
        List.Forall₂
          (fun core least =>
            IsLeast {id | ∃ thread, t.Hangs thread .thread id core}
              least)
          (t.ofKind .core) lowest
  numbered :
    ∀ (index : Nat) core,
      (t.ofKind .core)[index]? = some core →
        ∃ id, t.HasAt id .core core ∧ id.toNat = index

------------------------------------------------------------
-- Threads and Processors
------------------------------------------------------------

section Housing

variable {files : Files}
variable {root : String}
variable {cpus : List Cpu}
variable {caches : List Nat}
variable {a : Assembly}
variable
  (hHolds :
    a.Holds (cpus.map Cpu.package) (cpus.map Cpu.site) cpus caches)

section Keys

include hHolds

theorem nodup_packages :
    (a.chips.map Prod.fst).Nodup := by
  rw [hHolds.packages]
  exact KeyedLists.nodup_eraseDups _

theorem nodup_sites :
    (a.cores.map Prod.fst).Nodup := by
  rw [hHolds.sites]
  exact KeyedLists.nodup_eraseDups _

/- A chip has one key, and a key has one chip. -/
theorem chip_eq_iff
    {package package' : UInt32}
    {node node' : Nat}
    (hChip : (package, node) ∈ a.chips)
    (hOther : (package', node') ∈ a.chips) :
    node = node' ↔ package = package' := by
  apply KeyedLists.value_eq_iff (nodup_packages hHolds) _
    hChip hOther
  rw [← hHolds.chips]
  exact nodup_ofKind _ _

/- A core has one key, and a key has one core. -/
theorem core_eq_iff
    {site site' : UInt32 × UInt32}
    {node node' : Nat}
    (hCore : (site, node) ∈ a.cores)
    (hOther : (site', node') ∈ a.cores) :
    node = node' ↔ site = site' := by
  apply KeyedLists.value_eq_iff (nodup_sites hHolds) _
    hCore hOther
  rw [← hHolds.cores]
  exact nodup_ofKind _ _

/- A thread stands for a processor, below the core of its site. -/
theorem exists_cpu_of_thread
    {thread : Nat}
    {id : UInt32}
    (hThread : a.topology.HasAt id .thread thread) :
    ∃ cpu ∈ cpus,
      cpu.id = id ∧
        ∃ core,
          (cpu.site, core) ∈ a.cores ∧
            a.topology.parent? thread = some core := by
  have hMem := (mem_ofKind_iff .thread thread).mpr ⟨id, hThread⟩
  rcases KeyedLists.exists_item hHolds.threads hMem with
    ⟨cpu, hCpu, core, hCore, hHas, hParent⟩
  exact ⟨cpu, hCpu, (hHas.unique hThread).1, core, hCore, hParent⟩

/- A remembered core is housed in the chip of its socket. -/
theorem exists_housed
    {site : UInt32 × UInt32}
    {thread core : Nat}
    (hCore : (site, core) ∈ a.cores)
    (hThread : a.topology.parent? thread = some core) :
    ∃ chip,
      (site.1, chip) ∈ a.chips ∧
        Housed a.topology thread core chip := by
  rcases hHolds.exists_core hCore with
    ⟨index, chip, hChip, hHas, hParent⟩
  have hHangs := hHolds.chip site.1 chip hChip
  exact ⟨chip, hChip, hThread,
    (isOfKind_iff _ _ _).mpr ⟨_, hHas⟩, hParent,
    (isOfKind_iff _ _ _).mpr ⟨_, hHangs.1⟩, hHangs.2⟩

/- Where a thread is housed is remembered. -/
theorem chip_of_housed
    {site : UInt32 × UInt32}
    {thread core chip : Nat}
    (hCore : (site, core) ∈ a.cores)
    (hHoused : Housed a.topology thread core chip) :
    (site.1, chip) ∈ a.chips := by
  rcases hHolds.exists_core hCore with
    ⟨_, chip', hChip, -, hParent⟩
  rw [hHoused.inChip] at hParent
  exact Option.some.inj hParent ▸ hChip

end Keys

variable (hSurvey : Surveyed files root cpus)

include hSurvey

/- Names and numbers of processors are one to one. -/
theorem Surveyed.existsUnique_name
    {cpu : Cpu}
    (hCpu : cpu ∈ cpus) :
    ∃! name, Listed files root name cpu.id := by
  rcases (hSurvey.mem_iff cpu).mp hCpu with ⟨name, hDepicts⟩
  refine ⟨name, hDepicts.toListed, ?_⟩
  intro other hOther
  exact hSurvey.name_eq other name _ hOther hDepicts.toListed

theorem Surveyed.exists_cpu
    {name : String}
    {id : UInt32}
    (hListed : Listed files root name id) :
    ∃ cpu ∈ cpus, cpu.id = id := by
  rcases hListed.exists_depicts with ⟨cpu, hDepicts, hId⟩
  exact ⟨cpu, (hSurvey.mem_iff cpu).mpr ⟨name, hDepicts⟩, hId⟩

/- The files of a processor state where it belongs. -/
theorem Surveyed.site_eq
    {cpu : Cpu}
    (hCpu : cpu ∈ cpus)
    {name : String}
    {package core : UInt32}
    (hSited : Sited files root name cpu.id package core) :
    cpu.site = (package, core) := by
  rcases (hSurvey.mem_iff cpu).mp hCpu with ⟨other, hDepicts⟩
  have hName :=
    hSurvey.name_eq name other _ hSited.toListed hDepicts.toListed
  subst hName
  rw [Cpu.site, hDepicts.inPackage.unique hSited.inPackage,
    hDepicts.inCore.unique hSited.inCore]

include hHolds

/- A seat is where the assembly has put the thread. -/
theorem Seated.remembered
    {package core : UInt32}
    {thread coreNode chipNode : Nat}
    (hSeated :
      Seated files root a.topology package core thread coreNode
        chipNode) :
    ((package, core), coreNode) ∈ a.cores ∧
      (package, chipNode) ∈ a.chips := by
  rcases hSeated.processor with ⟨name, id, hSited, hThread⟩
  rcases exists_cpu_of_thread hHolds hThread with
    ⟨cpu, hCpu, rfl, node, hCore, hParent⟩
  rw [hSeated.housed.inCore] at hParent
  cases Option.some.inj hParent
  rw [hSurvey.site_eq hCpu hSited] at hCore
  exact ⟨hCore, chip_of_housed hHolds hCore hSeated.housed⟩

/- Every thread has a seat. -/
theorem exists_seat
    {thread : Nat}
    {id : UInt32}
    (hThread : a.topology.HasAt id .thread thread) :
    ∃ package core coreNode chipNode,
      Seated files root a.topology package core thread coreNode
        chipNode := by
  rcases exists_cpu_of_thread hHolds hThread with
    ⟨cpu, hCpu, rfl, core, hCore, hParent⟩
  rcases exists_housed hHolds hCore hParent with
    ⟨chip, -, hHoused⟩
  rcases (hSurvey.mem_iff cpu).mp hCpu with ⟨name, hDepicts⟩
  exact ⟨cpu.package, cpu.core, core, chip,
    ⟨name, cpu.id, hDepicts.toSited, hThread⟩, hHoused⟩

------------------------------------------------------------
-- Cores by Number
------------------------------------------------------------

omit hSurvey in
/- The threads of a core are the processors of its site. -/
theorem threads_of_core
    {site : UInt32 × UInt32}
    {core : Nat}
    (hCore : (site, core) ∈ a.cores) :
    {id | ∃ thread, a.topology.Hangs thread .thread id core} =
      {id | ∃ cpu ∈ cpus, cpu.site = site ∧ cpu.id = id} := by
  ext id
  constructor
  · rintro ⟨thread, hThread, hParent⟩
    rcases exists_cpu_of_thread hHolds hThread with
      ⟨cpu, hCpu, hId, other, hOther, hParent'⟩
    rw [hParent] at hParent'
    have hSite :=
      (core_eq_iff hHolds hOther hCore).mp
        (Option.some.inj hParent').symm
    exact ⟨cpu, hCpu, hSite, hId⟩
  · rintro ⟨cpu, hCpu, rfl, rfl⟩
    rcases KeyedLists.exists_image hHolds.threads hCpu with
      ⟨thread, -, other, hOther, hHangs⟩
    rw [(core_eq_iff hHolds hOther hCore).mpr rfl] at hHangs
    exact ⟨thread, hHangs⟩

/- The cores are in the order of their lowest threads. -/
theorem exists_lowest :
    ∃ lowest : List UInt32,
      lowest.Pairwise (· < ·) ∧
        List.Forall₂
          (fun core least =>
            IsLeast
              {id |
                ∃ thread, a.topology.Hangs thread .thread id core}
              least)
          (a.topology.ofKind .core) lowest := by
  rcases KeyedLists.exists_leasts Cpu.site Cpu.id
    hSurvey.ascending with ⟨lowest, hLeast, hSorted, -⟩
  refine ⟨lowest, hSorted, ?_⟩
  -- The cores are remembered in the order of the distinct sites.
  rw [← hHolds.sites, List.forall₂_map_left_iff] at hLeast
  rw [hHolds.cores, List.forall₂_map_left_iff]
  have hMembers :=
    (List.forall₂_and_left (p := fun entry => entry ∈ a.cores)
      _ _).mpr ⟨fun _ hEntry => hEntry, hLeast⟩
  refine hMembers.imp ?_
  rintro ⟨site, core⟩ least ⟨hCore, hIsLeast⟩
  rw [threads_of_core hHolds hCore]
  exact hIsLeast

omit hHolds in
/- There are no more processors than numbers. -/
theorem Surveyed.length_le :
    cpus.length ≤ UInt32.size := by
  have hNodup :
      (cpus.map fun cpu => cpu.id.toNat).Nodup := by
    refine List.pairwise_map.mpr (hSurvey.ascending.imp ?_)
    intro one other hLess hSame
    exact Nat.ne_of_lt (UInt32.lt_iff_toNat_lt.mp hLess) hSame
  have hSubset :
      (cpus.map fun cpu => cpu.id.toNat) ⊆ List.range (UInt32.size) := by
    intro number hNumber
    rcases List.mem_map.mp hNumber with ⟨cpu, -, rfl⟩
    exact List.mem_range.mpr cpu.id.toNat_lt
  have hLength := (hNodup.subperm hSubset).length_le
  rwa [List.length_map, List.length_range] at hLength

/- A core has its position among the cores as its number. -/
theorem core_numbered
    {index core : Nat}
    (hCore : (a.topology.ofKind .core)[index]? = some core) :
    ∃ id, a.topology.HasAt id .core core ∧ id.toNat = index := by
  rw [hHolds.cores, List.getElem?_map] at hCore
  rcases Option.map_eq_some_iff.mp hCore with
    ⟨⟨site, _⟩, hEntry, rfl⟩
  rcases hHolds.core index site _ hEntry with ⟨_, -, hHas, -⟩
  refine ⟨_, hHas, UInt32.toNat_ofNat_of_lt' ?_⟩
  have hIndex := (List.getElem?_eq_some_iff.mp hEntry).1
  have hCores : a.cores.length ≤ cpus.length := by
    have hSubset :=
      (KeyedLists.nodup_eraseDups (cpus.map Cpu.site)).subperm
        fun _ => List.mem_eraseDups.mp
    rw [← List.length_map Prod.fst, hHolds.sites]
    simpa using hSubset.length_le
  exact Nat.lt_of_lt_of_le hIndex
    (Nat.le_trans hCores hSurvey.length_le)

------------------------------------------------------------
-- Loaded Topologies
------------------------------------------------------------

/- What is assembled from the listed processors is well grouped. -/
theorem grouped_assembly :
    Grouped files root a.topology where
  machine := ⟨hHolds.machine, hHolds.rooted.parent?_zero⟩
  threads := by
    refine ⟨cpus.map Cpu.id, ?_, ?_, ?_, ?_⟩
    · exact List.pairwise_map.mpr hSurvey.ascending
    · intro name id hListed
      rcases hSurvey.exists_cpu hListed with ⟨cpu, hCpu, rfl⟩
      exact List.mem_map_of_mem hCpu
    · intro id hId
      rcases List.mem_map.mp hId with ⟨cpu, hCpu, rfl⟩
      exact hSurvey.existsUnique_name hCpu
    · rw [List.forall₂_map_left_iff]
      exact hHolds.threads.imp fun _ _ ⟨_, _, hHangs⟩ => hHangs.1
  seated := by
    intro thread hThread
    rcases (mem_ofKind_iff _ _).mp hThread with ⟨id, hHas⟩
    exact exists_seat hHolds hSurvey hHas
  shared := by
    intro _ _ _ _ _ _ _ _ _ _ hOne hOther
    rcases hOne.remembered hHolds hSurvey with ⟨hCore, hChip⟩
    rcases hOther.remembered hHolds hSurvey with ⟨hCore', hChip'⟩
    exact ⟨core_eq_iff hHolds hCore hCore',
      chip_eq_iff hHolds hChip hChip'⟩
  cores := exists_lowest hHolds hSurvey
  numbered := fun _ _ => core_numbered hHolds hSurvey

end Housing

/- There is a topology as soon as some processor is listed. -/
theorem exists_load_iff
    (files : Files)
    (root : String)
    (meminfo : Option String) :
    (∃ t, load files root meminfo = .ok t) ↔
      ∃ name id, Listed files root name id := by
  constructor
  · rintro ⟨t, hLoad⟩
    rcases (load_eq_ok_iff meminfo t).mp hLoad with
      ⟨names, hList, hSome, -⟩
    rcases List.exists_mem_of_ne_nil _ hSome with ⟨cpu, hCpu⟩
    rcases (mem_survey_iff names cpu).mp hCpu with
      ⟨name, hName, hRead⟩
    exact ⟨name, cpu.id,
      ((depicts_iff hList cpu).mpr ⟨hName, hRead⟩).toListed⟩
  · rintro ⟨name, id, hListed⟩
    rcases hListed.entry with ⟨names, hList, -⟩
    rcases hListed.exists_depicts with ⟨cpu, hDepicts, -⟩
    have hCpu : cpu ∈ survey files root names :=
      (mem_survey_iff names cpu).mpr
        ⟨name, (depicts_iff hList cpu).mp hDepicts⟩
    exact ⟨_, (load_eq_ok_iff meminfo _).mpr
      ⟨names, hList, List.ne_nil_of_mem hCpu, rfl⟩⟩

/- What is loaded is assembled from the listed processors. -/
theorem exists_assembly_of_load
    {files : Files}
    {root : String}
    {meminfo : Option String}
    (hNames :
      ∀ names, files.list root = .ok names → Unambiguous names)
    {t : Topology}
    (hLoad : load files root meminfo = .ok t) :
    ∃ (cpus : List Cpu) (a : Assembly) (caches : List Nat),
      Surveyed files root cpus ∧
        t = a.topology ∧
        a.Holds (cpus.map Cpu.package) (cpus.map Cpu.site) cpus
          caches ∧
        List.Forall₂ (a.Shows cpus) (uniqueCaches cpus) caches := by
  rcases (load_eq_ok_iff meminfo t).mp hLoad with
    ⟨names, hList, -, rfl⟩
  rcases exists_assembly (memoryOf? files meminfo)
    (survey files root names) with
    ⟨a, caches, hSame, hHolds, hShown⟩
  exact ⟨_, a, caches,
    surveyed_of_list hList (hNames names hList),
    hSame, hHolds, hShown⟩

/-
  As long as no two names of processors denote the same number,
  what is loaded does not depend on the order in which directories
  list their entries. It is a topology when a processor is listed
  that is not offline. Its threads are these processors in
  ascending order, in the cores and chips that their files state,
  and the cores are numbered by their lowest processor.
-/
theorem loaded_topologies_are_grouped
    (files : Files)
    (root : String)
    (meminfo : Option String)
    (hNames :
      ∀ names, files.list root = .ok names → Unambiguous names) :
    (∀ other : Files,
        files.Rearranged other →
          load other root meminfo = load files root meminfo) ∧
      ((∃ t, load files root meminfo = .ok t) ↔
        ∃ name id, Listed files root name id) ∧
      ∀ t,
        load files root meminfo = .ok t → Grouped files root t := by
  refine ⟨?_, exists_load_iff files root meminfo, ?_⟩
  · intro other hFiles
    exact load_rearranged hFiles root meminfo hNames
  · intro t hLoad
    rcases exists_assembly_of_load hNames hLoad with
      ⟨cpus, a, caches, hSurvey, rfl, hHolds, -⟩
    exact grouped_assembly hHolds hSurvey

/- The directory of a processor in a socket and a core. -/
def processorTree
    (package core : String)
    (caches : List (String × FileTree)) : FileTree :=
  .directory
    [("topology", .directory
        [("physical_package_id", .text package),
          ("core_id", .text core)]),
      ("cache", .directory caches)]

/-
  Three processors and one that is offline, in two orders. Two of
  them share a core. The socket and the core of the third one can
  not be read, so that it has a core of its own in the socket 0.
-/
theorem loaded_topologies_are_grouped_two_orders :
    ∃ (files other : Files) (t : Topology),
      files.Rearranged other ∧
        files.list "/cpu" ≠ other.list "/cpu" ∧
        load files "/cpu" none = .ok t ∧
        load other "/cpu" none = .ok t ∧
        Grouped files "/cpu" t ∧
        t.components.toList.map
            (fun one => (one.kind, one.id, one.parent)) =
          [(.node, 0, none), (.chip, 0, some 0),
            (.core, 0, some 1), (.thread, 2, some 2),
            (.thread, 3, some 2), (.core, 1, some 1),
            (.thread, 10, some 5)] := by
  let entries :=
    [("cpu10", processorTree "-1\n" "none\n" []),
      ("cpu7", .directory [("online", .text "0\n")]),
      ("cpu3", processorTree "0\n" " 4" []),
      ("cpu2", processorTree "0\n" "4\n" []),
      ("cpufreq", .directory [])]
  let files : Files :=
    { root := .directory [("cpu", .directory entries)] }
  let other : Files :=
    { root := .directory [("cpu", .directory entries.reverse)] }
  let names := ["cpu10", "cpu7", "cpu3", "cpu2", "cpufreq"]
  let cpus : List Cpu :=
    [⟨2, 0, 4, none, []⟩, ⟨3, 0, 4, none, []⟩,
      ⟨10, 0, 10, none, []⟩]
  have hEntries :
      FileTree.Shuffled (.directory entries)
        (.directory entries.reverse) :=
    .permuted (List.reverse_perm _).symm (by decide)
  have hFiles : files.Rearranged other :=
    Files.rearranged_of_shuffled (hEntries.entry "cpu" [])
      (.refl _)
  have hList : files.list "/cpu" = .ok names := by
    decide +kernel
  have hOther : files.list "/cpu" ≠ other.list "/cpu" := by
    decide +kernel
  have hApart : Unambiguous names := by
    rw [unambiguous_iff]
    decide +kernel
  have hNames :
      ∀ names, files.list "/cpu" = .ok names →
        Unambiguous names := by
    intro listed hListed
    rw [hList] at hListed
    exact Except.ok.inj hListed ▸ hApart
  have hSurvey : survey files "/cpu" names = cpus :=
    survey_eq hApart (by decide) (by decide +kernel)
  have hLoad : load files "/cpu" none = .ok (assemble none cpus) := by
    rw [load_of_list hList, hSurvey]
    rfl
  rcases loaded_topologies_are_grouped files "/cpu" none hNames with
    ⟨hOrder, -, hGrouped⟩
  refine ⟨files, other, assemble none cpus, hFiles, hOther, hLoad,
    (hOrder other hFiles).trans hLoad, hGrouped _ hLoad, ?_⟩
  -- No processor has a cache, so that there is nothing to sort.
  have hNone : cpus.flatMap Cpu.caches = [] := rfl
  rw [assemble, uniqueCaches, hNone, List.mergeSort_nil]
  decide +kernel

end Sysfs

end CoreTally
