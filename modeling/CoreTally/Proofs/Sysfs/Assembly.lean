import CoreTally.Proofs.KeyedLists
import CoreTally.Proofs.Topology.Growth
import CoreTally.Topology.Sysfs

/-
  What holds while a topology is put together. Every socket and
  every core is added when it is met for the first time, and it
  is remembered under its key. Every processor adds one thread
  below its core.

  Key definitions include:
    * `Sysfs.Cpu.site`
    * `Sysfs.Assembly.Holds`
    * `Sysfs.Assembly.Shows`

  Key theorems include:
    * `Sysfs.Assembly.Holds.withChip`
    * `Sysfs.Assembly.Holds.withCore`
    * `Sysfs.Assembly.Holds.addCpu`
    * `Sysfs.Assembly.holds_foldl_addCpu`
    * `Sysfs.Assembly.holds_foldl_addCache`
    * `Sysfs.exists_assembly`
-/

namespace CoreTally.Sysfs

open CoreTally.Topology

/- The socket of a processor, and its core there. -/
def Cpu.site (cpu : Cpu) : UInt32 × UInt32 :=
  (cpu.package, cpu.core)

------------------------------------------------------------
-- The Invariant
------------------------------------------------------------

namespace Assembly

/-
  The sockets and the cores of the topology are those that were
  met so far, each of them once and oldest first. The number of
  the next core says how many there are. The threads are the
  processors so far, below their cores. The caches are at the
  given positions.
-/
structure Holds
    (packages : List UInt32)
    (sites : List (UInt32 × UInt32))
    (cpus : List Cpu)
    (caches : List Nat)
    (a : Assembly) : Prop where
  rooted : a.topology.Rooted
  machine : a.topology.HasAt 0 .node rootNode
  packages : a.chips.map Prod.fst = packages.eraseDups
  sites : a.cores.map Prod.fst = sites.eraseDups
  chips : a.topology.ofKind .chip = a.chips.map Prod.snd
  cores : a.topology.ofKind .core = a.cores.map Prod.snd
  caches : a.topology.ofKind .cache = caches
  chip :
    ∀ package node,
      (package, node) ∈ a.chips →
        a.topology.Hangs node .chip package rootNode
  core :
    ∀ (index : Nat) site node,
      a.cores[index]? = some (site, node) →
        ∃ chip,
          (site.1, chip) ∈ a.chips ∧
            a.topology.Hangs node .core (.ofNat index) chip
  nextCore : a.nextCore = .ofNat a.cores.length
  threads :
    List.Forall₂
      (fun cpu node =>
        ∃ core,
          (cpu.site, core) ∈ a.cores ∧
            a.topology.Hangs node .thread cpu.id core)
      cpus (a.topology.ofKind .thread)

variable {packages : List UInt32}
variable {sites : List (UInt32 × UInt32)}
variable {cpus : List Cpu}
variable {caches : List Nat}
variable {a : Assembly}

section Growing

variable (hHolds : a.Holds packages sites cpus caches)
variable {larger : Topology}
variable {parent : Nat}
variable {kind : ComponentKind}
variable {id : UInt32}
variable (hAdds : a.topology.Adds larger parent kind id)
include hHolds hAdds

/- Another component moves none that is remembered. -/
theorem Holds.keepsChip
    (package : UInt32)
    (node : Nat)
    (hMem : (package, node) ∈ a.chips) :
    larger.Hangs node .chip package rootNode :=
  hAdds.kept (hHolds.chip package node hMem)

theorem Holds.keepsCore
    {chips : List (UInt32 × Nat)}
    (hChips : a.chips ⊆ chips)
    (index : Nat)
    (site : UInt32 × UInt32)
    (node : Nat)
    (hMem : a.cores[index]? = some (site, node)) :
    ∃ chip,
      (site.1, chip) ∈ chips ∧
        larger.Hangs node .core (.ofNat index) chip := by
  rcases hHolds.core index site node hMem with
    ⟨chip, hChip, hHangs⟩
  exact ⟨chip, hChips hChip, hAdds.kept hHangs⟩

theorem Holds.keepsThreads
    {cores : List ((UInt32 × UInt32) × Nat)}
    (hCores : a.cores ⊆ cores) :
    List.Forall₂
      (fun cpu node =>
        ∃ core,
          (cpu.site, core) ∈ cores ∧
            larger.Hangs node .thread cpu.id core)
      cpus (a.topology.ofKind .thread) := by
  refine hHolds.threads.imp ?_
  rintro cpu node ⟨core, hCore, hHangs⟩
  exact ⟨core, hCores hCore, hAdds.kept hHangs⟩

/- Components of other kinds may be added at any time. -/
theorem Holds.adds
    (hChip : ComponentKind.chip ≠ kind)
    (hCore : ComponentKind.core ≠ kind)
    (hThread : ComponentKind.thread ≠ kind) :
    Holds packages sites cpus (larger.ofKind .cache)
      { a with topology := larger } where
  rooted := hAdds.rooted hHolds.rooted
  machine := (hAdds.hasAt _ _ _).mpr (.inl hHolds.machine)
  packages := hHolds.packages
  sites := hHolds.sites
  chips := (hAdds.ofKind_of_ne hChip).trans hHolds.chips
  cores := (hAdds.ofKind_of_ne hCore).trans hHolds.cores
  caches := rfl
  chip := hHolds.keepsChip hAdds
  core := hHolds.keepsCore hAdds (List.Subset.refl _)
  nextCore := hHolds.nextCore
  threads := by
    rw [hAdds.ofKind_of_ne hThread]
    exact hHolds.keepsThreads hAdds (List.Subset.refl _)

end Growing

------------------------------------------------------------
-- Steps
------------------------------------------------------------

variable (hHolds : a.Holds packages sites cpus caches)
variable {larger : Topology}
include hHolds

/- A new socket is remembered. -/
theorem Holds.addsChip
    {package : UInt32}
    (hAdds : a.topology.Adds larger rootNode .chip package)
    (hNew : package ∉ packages) :
    Holds (packages ++ [package]) sites cpus caches
      { a with
        topology := larger
        chips := a.chips ++ [(package, a.topology.size)] } where
  rooted := hAdds.rooted hHolds.rooted
  machine := (hAdds.hasAt _ _ _).mpr (.inl hHolds.machine)
  packages := by
    rw [KeyedLists.eraseDups_concat, if_neg hNew,
      List.map_append, hHolds.packages]
    rfl
  sites := hHolds.sites
  chips := by
    rw [hAdds.ofKind_same, List.map_append, hHolds.chips]
    rfl
  cores := (hAdds.ofKind_of_ne (by decide)).trans hHolds.cores
  caches := (hAdds.ofKind_of_ne (by decide)).trans hHolds.caches
  chip := by
    intro other node hMem
    rcases List.mem_append.mp hMem with hOld | hLast
    · exact hHolds.keepsChip hAdds other node hOld
    · cases List.mem_singleton.mp hLast
      exact hAdds.new
  core := hHolds.keepsCore hAdds (List.subset_append_left _ _)
  nextCore := hHolds.nextCore
  threads := by
    rw [hAdds.ofKind_of_ne (by decide)]
    exact hHolds.keepsThreads hAdds (List.Subset.refl _)

/- A new core is remembered below its socket. -/
theorem Holds.addsCore
    {site : UInt32 × UInt32}
    {chip : Nat}
    (hChip : (site.1, chip) ∈ a.chips)
    (hAdds : a.topology.Adds larger chip .core a.nextCore)
    (hNew : site ∉ sites) :
    Holds packages (sites ++ [site]) cpus caches
      { a with
        topology := larger
        cores := a.cores ++ [(site, a.topology.size)]
        nextCore := a.nextCore + 1 } where
  rooted := hAdds.rooted hHolds.rooted
  machine := (hAdds.hasAt _ _ _).mpr (.inl hHolds.machine)
  packages := hHolds.packages
  sites := by
    rw [KeyedLists.eraseDups_concat, if_neg hNew,
      List.map_append, hHolds.sites]
    rfl
  chips := (hAdds.ofKind_of_ne (by decide)).trans hHolds.chips
  cores := by
    rw [hAdds.ofKind_same, List.map_append, hHolds.cores]
    rfl
  caches := (hAdds.ofKind_of_ne (by decide)).trans hHolds.caches
  chip := hHolds.keepsChip hAdds
  core := by
    intro index other node hMem
    rcases Nat.lt_or_ge index a.cores.length with hOld | hLast
    · rw [List.getElem?_append_left hOld] at hMem
      exact hHolds.keepsCore hAdds (List.Subset.refl _) index
        other node hMem
    · rw [List.getElem?_append_right hLast,
        List.getElem?_singleton] at hMem
      split at hMem
      · rename_i hIndex
        cases Option.some.inj hMem
        have hSame : index = a.cores.length := by omega
        rw [hSame, ← hHolds.nextCore]
        exact ⟨chip, hChip, hAdds.new⟩
      · contradiction
  nextCore := by
    rw [hHolds.nextCore, List.length_append, List.length_singleton]
    exact (UInt32.ofNat_add a.cores.length 1).symm
  threads := by
    rw [hAdds.ofKind_of_ne (by decide)]
    exact hHolds.keepsThreads hAdds (List.subset_append_left _ _)

/- A new thread stands for the next processor. -/
theorem Holds.addsThread
    {cpu : Cpu}
    {core : Nat}
    (hCore : (cpu.site, core) ∈ a.cores)
    (hAdds : a.topology.Adds larger core .thread cpu.id) :
    Holds packages sites (cpus ++ [cpu]) caches
      { a with topology := larger } where
  rooted := hAdds.rooted hHolds.rooted
  machine := (hAdds.hasAt _ _ _).mpr (.inl hHolds.machine)
  packages := hHolds.packages
  sites := hHolds.sites
  chips := (hAdds.ofKind_of_ne (by decide)).trans hHolds.chips
  cores := (hAdds.ofKind_of_ne (by decide)).trans hHolds.cores
  caches := (hAdds.ofKind_of_ne (by decide)).trans hHolds.caches
  chip := hHolds.keepsChip hAdds
  core := hHolds.keepsCore hAdds (List.Subset.refl _)
  nextCore := hHolds.nextCore
  threads := by
    rw [hAdds.ofKind_same]
    apply List.rel_append
      (hHolds.keepsThreads hAdds (List.Subset.refl _))
    exact .cons ⟨core, hCore, hAdds.new⟩ .nil

omit hHolds in
/- A new component may be given an attribute that may be missing. -/
theorem adds_setUnsigned
    {t : Topology}
    {parent : Nat}
    {kind : ComponentKind}
    {id : UInt32}
    (hAdds : t.Adds larger parent kind id)
    (name : String)
    (value : Option UInt64) :
    t.Adds (setUnsigned larger t.size name value) parent kind id := by
  cases value with
  | none => exact hAdds
  | some n => exact hAdds.setAttribute name (.uint n)

/- What is remembered as a core is a core. -/
theorem Holds.exists_core
    {site : UInt32 × UInt32}
    {node : Nat}
    (hMem : (site, node) ∈ a.cores) :
    ∃ index chip,
      (site.1, chip) ∈ a.chips ∧
        a.topology.Hangs node .core index chip := by
  rcases List.mem_iff_getElem?.mp hMem with ⟨index, hIndex⟩
  rcases hHolds.core index site node hIndex with
    ⟨chip, hChip, hHangs⟩
  exact ⟨_, chip, hChip, hHangs⟩

/- The socket of the next processor is there, and remembered. -/
theorem Holds.withChip
    (package : UInt32) :
    Holds (packages ++ [package]) sites cpus caches
        (a.withChip package).1 ∧
      (package, (a.withChip package).2) ∈
        (a.withChip package).1.chips := by
  rw [Assembly.withChip]
  split
  · rename_i node hLookup
    have hMem := KeyedLists.mem_of_lookup hLookup
    have hOld : package ∈ packages := by
      rw [← List.mem_eraseDups, ← hHolds.packages]
      exact List.mem_map_of_mem hMem
    refine ⟨{ hHolds with packages := ?_ }, hMem⟩
    rw [KeyedLists.eraseDups_concat, if_pos hOld, hHolds.packages]
  · rename_i hLookup
    have hNew : package ∉ packages := by
      rw [← List.mem_eraseDups, ← hHolds.packages]
      exact (KeyedLists.lookup_eq_none_iff _ _).mp hLookup
    have hAdds :=
      adds_attach hHolds.rooted.positive .chip package
        s!"package {package}"
    exact ⟨hHolds.addsChip hAdds hNew,
      List.mem_append_right _ (List.mem_singleton_self _)⟩

/- The core of the next processor is there, and remembered. -/
theorem Holds.withCore
    {package : UInt32}
    {chip : Nat}
    (hChip : (package, chip) ∈ a.chips)
    (core : UInt32) :
    Holds packages (sites ++ [(package, core)]) cpus caches
        (a.withCore chip package core).1 ∧
      ((package, core), (a.withCore chip package core).2) ∈
        (a.withCore chip package core).1.cores := by
  rw [Assembly.withCore]
  split
  · rename_i node hLookup
    have hMem := KeyedLists.mem_of_lookup hLookup
    have hOld : (package, core) ∈ sites := by
      rw [← List.mem_eraseDups, ← hHolds.sites]
      exact List.mem_map_of_mem hMem
    refine ⟨{ hHolds with sites := ?_ }, hMem⟩
    rw [KeyedLists.eraseDups_concat, if_pos hOld, hHolds.sites]
  · rename_i hLookup
    have hNew : (package, core) ∉ sites := by
      rw [← List.mem_eraseDups, ← hHolds.sites]
      exact (KeyedLists.lookup_eq_none_iff _ _).mp hLookup
    have hInside := (hHolds.chip package chip hChip).1.lt_size
    have hAdds :=
      adds_attach hInside .core a.nextCore s!"core {core}"
    exact ⟨hHolds.addsCore hChip hAdds hNew,
      List.mem_append_right _ (List.mem_singleton_self _)⟩

/- The next processor adds what is missing, and its thread. -/
theorem Holds.addCpu
    (cpu : Cpu) :
    Holds (packages ++ [cpu.package]) (sites ++ [cpu.site])
      (cpus ++ [cpu]) caches (a.addCpu cpu) := by
  rcases hHolds.withChip cpu.package with ⟨hChips, hChip⟩
  rcases hChips.withCore hChip cpu.core with ⟨hCores, hCore⟩
  rcases hCores.exists_core hCore with ⟨_, _, -, hHangs⟩
  have hInside := hHangs.1.lt_size
  exact hCores.addsThread hCore
    (adds_setUnsigned (adds_attach hInside _ _ _) _ _)

omit hHolds in
/- All processors are added in turn. -/
theorem holds_foldl_addCpu
    (hHolds : a.Holds packages sites cpus caches)
    (more : List Cpu) :
    Holds (packages ++ more.map Cpu.package)
      (sites ++ more.map Cpu.site) (cpus ++ more) caches
      (more.foldl Assembly.addCpu a) := by
  induction more generalizing packages sites cpus a with
  | nil => simpa using hHolds
  | cons cpu more ih => simpa using ih (hHolds.addCpu cpu)

end Assembly

------------------------------------------------------------
-- The Whole Assembly
------------------------------------------------------------

/- The machine alone has no sockets, cores or threads. -/
theorem holds_machine
    (memory : Option UInt64) :
    Assembly.Holds [] [] [] [] { topology := machine memory } := by
  have hRoot :
      Assembly.Holds [] [] [] []
        { topology := empty.addRoot .node 0 "machine" } :=
    { rooted := rooted_addRoot_empty _ _ _
      machine := ⟨_, rfl, rfl, rfl⟩
      packages := rfl
      sites := rfl
      chips := rfl
      cores := rfl
      caches := rfl
      chip := nofun
      core := nofun
      nextCore := rfl
      threads := .nil }
  cases memory with
  | none => exact hRoot
  | some size =>
      have hAdds :=
        (adds_attach hRoot.rooted.positive .memory 0
          "main memory").setAttribute "size" (.uint size)
      have hHolds :=
        hRoot.adds hAdds (by decide) (by decide) (by decide)
      rw [hAdds.ofKind_of_ne (by decide), hRoot.caches] at hHolds
      exact hHolds

namespace Assembly

variable {packages : List UInt32}
variable {sites : List (UInt32 × UInt32)}
variable {present : List Cpu}
variable {caches : List Nat}
variable {a : Assembly}
variable (hHolds : a.Holds packages sites present caches)
variable (cpus : List Cpu)
variable (cache : Cache)
include hHolds

/- A cache hangs below something that is there. -/
theorem Holds.cacheParent_lt :
    a.cacheParent cpus cache < a.topology.size := by
  have hRoot : rootNode < a.topology.size := hHolds.rooted.positive
  have hCore :
      ∀ site, (a.cores.lookup site).getD rootNode <
        a.topology.size := by
    intro site
    rcases hLookup : a.cores.lookup site with _ | node
    · exact hRoot
    · rcases hHolds.exists_core
        (KeyedLists.mem_of_lookup hLookup) with
        ⟨_, _, -, hHangs⟩
      exact hHangs.1.lt_size
  have hChip :
      ∀ package, (a.chips.lookup package).getD rootNode <
        a.topology.size := by
    intro package
    rcases hLookup : a.chips.lookup package with _ | node
    · exact hRoot
    · have hHangs :=
        hHolds.chip package node
          (KeyedLists.mem_of_lookup hLookup)
      exact hHangs.1.lt_size
  rw [cacheParent]
  split
  · exact hCore _
  · exact hChip _
  · exact hRoot

/- A cache adds one component, which is remembered nowhere. -/
theorem Holds.adds_addCache
    (index : Nat) :
    a.topology.Adds (addCache cpus a cache index).topology
      (a.cacheParent cpus cache) .cache (.ofNat index) :=
  adds_setUnsigned
    (((adds_attach (hHolds.cacheParent_lt cpus cache) _ _ _)
      |>.setAttribute "cache_level" _)
      |>.setAttribute "cache_type" _) _ _

theorem Holds.addCache
    (index : Nat) :
    Holds packages sites present (caches ++ [a.topology.size])
      (addCache cpus a cache index) := by
  have hAdds := hHolds.adds_addCache cpus cache index
  have hLarger :=
    hHolds.adds hAdds (by decide) (by decide) (by decide)
  rw [hAdds.ofKind_same, hHolds.caches] at hLarger
  exact hLarger

/-
  A component shows a cache: it hangs where the cache belongs
  and has the level, the type and the size as attributes.
-/
structure Shows
    (a : Assembly)
    (cpus : List Cpu)
    (cache : Cache)
    (node : Nat) : Prop where
  hangs :
    ∃ index,
      a.topology.Hangs node .cache index (a.cacheParent cpus cache)
  level :
    a.topology.attribute? node "cache_level" =
      some (.uint cache.level.toUInt64)
  kind :
    a.topology.attribute? node "cache_type" =
      some (.text cache.kind)
  size :
    a.topology.attribute? node "cache_size" =
      cache.size.map .uint

omit hHolds in
theorem attribute?_setUnsigned
    (t : Topology)
    (node : Nat)
    (name : String)
    (value : Option UInt64)
    (key : String)
    (hNode : node < t.size)
    (hMissing : t.attribute? node name = none) :
    (setUnsigned t node name value).attribute? node key =
      if key = name then
        value.map .uint
      else
        t.attribute? node key := by
  cases value with
  | none =>
      split
      · rename_i hSame
        rw [hSame]
        exact hMissing
      · rfl
  | some n =>
      rw [setUnsigned, attribute?_setAttribute]
      simp [hNode]

/- The new component shows the new cache. -/
theorem Holds.shows_addCache
    (index : Nat) :
    (Assembly.addCache cpus a cache index).Shows cpus cache
      a.topology.size := by
  have hParent := hHolds.cacheParent_lt cpus cache
  have hAdds := hHolds.adds_addCache cpus cache index
  refine ⟨⟨_, hAdds.new⟩, ?_, ?_, ?_⟩
  all_goals
    rw [Assembly.addCache, attribute?_setUnsigned]
    all_goals
      simp [attribute?_setAttribute, attribute?_attach hParent]

/- What shows an older cache still does. -/
theorem Holds.shows_kept
    (index : Nat)
    {other : Cache}
    {node : Nat}
    (hShows : a.Shows cpus other node) :
    (Assembly.addCache cpus a cache index).Shows cpus other
      node := by
  have hAdds := hHolds.adds_addCache cpus cache index
  rcases hShows.hangs with ⟨id, hHangs⟩
  have hNode := hHangs.1.lt_size
  exact
    { hangs := ⟨id, hAdds.kept hHangs⟩
      level := (hAdds.attribute? node hNode _).trans hShows.level
      kind := (hAdds.attribute? node hNode _).trans hShows.kind
      size := (hAdds.attribute? node hNode _).trans hShows.size }

omit hHolds cache in
/- All caches are shown, in order. -/
theorem holds_foldl_addCache
    {shown : List Cache}
    (hHolds : a.Holds packages sites present caches)
    (hShown : List.Forall₂ (a.Shows cpus) shown caches)
    (more : List Cache)
    (start : Nat) :
    ∃ last caches,
      last =
          (more.zipIdx start).foldl
            (fun a (cache, index) => addCache cpus a cache index)
            a ∧
        last.Holds packages sites present caches ∧
        List.Forall₂ (last.Shows cpus) (shown ++ more) caches := by
  induction more generalizing a caches shown start with
  | nil => exact ⟨a, caches, rfl, hHolds, by simpa using hShown⟩
  | cons cache more ih =>
      have hNext := hHolds.addCache cpus cache start
      have hShown' :
          List.Forall₂ ((addCache cpus a cache start).Shows cpus)
            (shown ++ [cache]) (caches ++ [a.topology.size]) := by
        apply List.rel_append
        · exact hShown.imp fun _ _ =>
            hHolds.shows_kept cpus cache start
        · exact .cons (hHolds.shows_addCache cpus cache start) .nil
      simpa using ih hNext hShown' (start + 1)

end Assembly

/-
  The topology of some processors, as it is when the assembly
  has come to its end.
-/
theorem exists_assembly
    (memory : Option UInt64)
    (cpus : List Cpu) :
    ∃ a caches,
      assemble memory cpus = a.topology ∧
        Assembly.Holds (cpus.map Cpu.package) (cpus.map Cpu.site)
          cpus caches a ∧
        List.Forall₂ (a.Shows cpus) (uniqueCaches cpus) caches := by
  have hThreads :=
    Assembly.holds_foldl_addCpu (holds_machine memory) cpus
  rcases Assembly.holds_foldl_addCache cpus hThreads .nil
    (uniqueCaches cpus) 0 with ⟨a, caches, rfl, hHolds, hShown⟩
  exact ⟨_, caches, rfl, by simpa using hHolds, hShown⟩

end CoreTally.Sysfs
