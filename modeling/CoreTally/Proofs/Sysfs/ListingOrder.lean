import CoreTally.Proofs.Files.Rearrangement
import CoreTally.Proofs.Sysfs.CacheOrder
import CoreTally.Proofs.Sysfs.Description

/-
  What is loaded does not depend on the order in which
  directories list their entries. Processors are sorted by
  number and caches by all that they are, so the order of a
  listing shows in neither of them.

  Key definitions include:
    * `Sysfs.Cpu.bare`
    * `Sysfs.Cpu.Resembles`

  Key theorems include:
    * `Sysfs.assemble_congr`
    * `Sysfs.readCpu?_rearranged`
    * `Sysfs.load_rearranged`
-/

namespace CoreTally.Sysfs

------------------------------------------------------------
-- What the Assembly Looks At
------------------------------------------------------------

/- A processor without its caches. -/
def Cpu.bare (cpu : Cpu) : Cpu :=
  { cpu with caches := [] }

theorem owner?_map_bare
    (cpus : List Cpu)
    (id : UInt32) :
    Assembly.owner? (cpus.map Cpu.bare) id =
      Assembly.owner? cpus id := by
  rw [Assembly.owner?, Assembly.owner?, ← List.map_reverse, List.find?_map,
    Option.map_map]
  rfl

theorem addCache_map_bare
    (cpus : List Cpu) :
    Assembly.addCache (cpus.map Cpu.bare) =
      Assembly.addCache cpus := by
  funext a cache index
  have hOwner :
      Assembly.owner? (cpus.map Cpu.bare) = Assembly.owner? cpus :=
    funext (owner?_map_bare cpus)
  simp only [Assembly.addCache, Assembly.cacheParent, hOwner]

theorem foldl_addCpu_map_bare
    (cpus : List Cpu)
    (a : Assembly) :
    (cpus.map Cpu.bare).foldl Assembly.addCpu a =
      cpus.foldl Assembly.addCpu a :=
  List.foldl_map

/-
  A topology depends on the processors, apart from their caches,
  and on which caches some of them report.
-/
theorem assemble_congr
    (memory : Option UInt64)
    {cpus others : List Cpu}
    (hBare : cpus.map Cpu.bare = others.map Cpu.bare)
    (hCaches :
      ∀ cache,
        (∃ cpu ∈ cpus, cache ∈ cpu.caches) ↔
          ∃ cpu ∈ others, cache ∈ cpu.caches) :
    assemble memory cpus = assemble memory others := by
  rw [assemble, assemble, ← addCache_map_bare cpus,
    ← foldl_addCpu_map_bare cpus, hBare, addCache_map_bare,
    foldl_addCpu_map_bare, uniqueCaches_congr hCaches]

------------------------------------------------------------
-- Reading Rearranged Files
------------------------------------------------------------

/- Two processors differ in the order of their caches at most. -/
structure Cpu.Resembles (cpu other : Cpu) : Prop where
  bare : cpu.bare = other.bare
  caches : cpu.caches.Perm other.caches

variable {files other : Files}
variable (hFiles : files.Rearranged other)

section Reading

include hFiles

theorem readTrimmed?_rearranged
    (path : String) :
    readTrimmed? other path = readTrimmed? files path := by
  rw [readTrimmed?, readTrimmed?, hFiles.readText]

theorem readUnsigned?_rearranged
    (path : String) :
    readUnsigned? other path = readUnsigned? files path := by
  rw [readUnsigned?, readUnsigned?,
    readTrimmed?_rearranged hFiles]

theorem readSigned?_rearranged
    (path : String) :
    readSigned? other path = readSigned? files path := by
  rw [readSigned?, readSigned?, readTrimmed?_rearranged hFiles]

theorem readCache?_rearranged
    (cpu : UInt32)
    (base : String) :
    readCache? other cpu base = readCache? files cpu base := by
  simp only [readCache?, readUnsigned?_rearranged hFiles,
    readTrimmed?_rearranged hFiles]

/- A processor has the same caches in some order. -/
theorem readCaches_rearranged
    (cpu : UInt32)
    (base : String) :
    (readCaches files cpu base).Perm
      (readCaches other cpu base) := by
  rw [readCaches, readCaches]
  rcases hList : files.list base with cause | names
  · rw [hFiles.list_error hList]
  · rcases hFiles.exists_perm hList with ⟨others, hOthers, hNames⟩
    rw [hOthers]
    simp only [readCache?_rearranged hFiles]
    exact (hNames.filter _).filterMap _

theorem readCpu?_rearranged
    (root name : String) :
    Option.Rel Cpu.Resembles
      (readCpu? files root name)
      (readCpu? other root name) := by
  rw [readCpu?, readCpu?]
  rcases cpuNumber? name with _ | id
  · exact .none
  · simp only [readUnsigned?_rearranged hFiles,
      readSigned?_rearranged hFiles]
    split
    · exact .none
    · refine .some ⟨?_, readCaches_rearranged hFiles _ _⟩
      simp only [Cpu.bare]

/- A name stands for the same processor without its caches. -/
theorem bare_readCpu?_rearranged
    (root name : String) :
    (readCpu? other root name).map Cpu.bare =
      (readCpu? files root name).map Cpu.bare := by
  have hCpu := readCpu?_rearranged hFiles root name
  generalize readCpu? files root name = cpu,
    readCpu? other root name = cpu' at hCpu ⊢
  cases hCpu with
  | none => rfl
  | some hResembles =>
      exact congrArg some hResembles.bare.symm

/- A name brings the same caches. -/
theorem mem_caches_rearranged
    (root name : String)
    (cache : Cache) :
    (∃ cpu,
        readCpu? files root name = some cpu ∧
          cache ∈ cpu.caches) ↔
      ∃ cpu,
        readCpu? other root name = some cpu ∧
          cache ∈ cpu.caches := by
  have hCpu := readCpu?_rearranged hFiles root name
  generalize readCpu? files root name = cpu,
    readCpu? other root name = cpu' at hCpu ⊢
  cases hCpu with
  | none => rfl
  | some hResembles =>
      simp [hResembles.caches.mem_iff]

end Reading

------------------------------------------------------------
-- Loading Rearranged Files
------------------------------------------------------------

section Loading

include hFiles

/- Apart from their caches, the same processors are read. -/
theorem map_bare_survey_rearranged
    (root : String)
    {names others : List String}
    (hNames : names.Perm others)
    (hApart : Unambiguous names) :
    (survey other root others).map Cpu.bare =
      (survey files root names).map Cpu.bare := by
  have hAlike :
      (fun name => (readCpu? other root name).map Cpu.bare) =
        fun name => (readCpu? files root name).map Cpu.bare :=
    funext (bare_readCpu?_rearranged hFiles root)
  have hPerm :
      ((survey other root others).map Cpu.bare).Perm
        ((survey files root names).map Cpu.bare) := by
    refine ((List.mergeSort_perm _ _).map _).trans
      (.trans ?_ ((List.mergeSort_perm _ _).map _).symm)
    rw [List.map_filterMap, List.map_filterMap, hAlike]
    exact hNames.symm.filterMap _
  have hApart' : Unambiguous others :=
    hNames.pairwise hApart fun hDiffer number hBoth =>
      hDiffer number hBoth.symm
  -- Both lists ascend by number, so they agree item by item.
  refine @List.Perm.eq_of_pairwise _
    (fun one other : Cpu => one.id < other.id) _ _ ?_ ?_ ?_ hPerm
  · intro one other _ _ hLess hGreater
    exact absurd hGreater (UInt32.lt_asymm hLess)
  · exact List.pairwise_map.mpr (pairwise_survey hApart')
  · exact List.pairwise_map.mpr (pairwise_survey hApart)

omit hFiles in
theorem exists_cache_survey_iff
    (root : String)
    (names : List String)
    (cache : Cache) :
    (∃ cpu ∈ survey files root names, cache ∈ cpu.caches) ↔
      ∃ name ∈ names, ∃ cpu,
        readCpu? files root name = some cpu ∧
          cache ∈ cpu.caches := by
  simp only [mem_survey_iff]
  constructor
  · rintro ⟨cpu, ⟨name, hName, hRead⟩, hCache⟩
    exact ⟨name, hName, cpu, hRead, hCache⟩
  · rintro ⟨name, hName, cpu, hRead, hCache⟩
    exact ⟨cpu, ⟨name, hName, hRead⟩, hCache⟩

/- All processors together bring the same caches. -/
theorem mem_caches_survey_rearranged
    (root : String)
    {names others : List String}
    (hNames : names.Perm others)
    (cache : Cache) :
    (∃ cpu ∈ survey other root others, cache ∈ cpu.caches) ↔
      ∃ cpu ∈ survey files root names, cache ∈ cpu.caches := by
  rw [exists_cache_survey_iff, exists_cache_survey_iff]
  simp only [mem_caches_rearranged hFiles, hNames.mem_iff]

/- The order of listings shows in no result, nor in an error. -/
theorem load_rearranged
    (root : String)
    (meminfo : Option String)
    (hNames :
      ∀ names, files.list root = .ok names → Unambiguous names) :
    load other root meminfo = load files root meminfo := by
  rcases hList : files.list root with cause | names
  · rw [load_of_error hList, load_of_error (hFiles.list_error hList)]
  · rcases hFiles.exists_perm hList with ⟨others, hOthers, hPerm⟩
    have hBare :=
      map_bare_survey_rearranged hFiles root hPerm
        (hNames names hList)
    have hCaches :=
      mem_caches_survey_rearranged hFiles root hPerm
    have hNil :
        survey other root others = [] ↔
          survey files root names = [] := by
      rw [← List.map_eq_nil_iff, hBare, List.map_eq_nil_iff]
    have hMemory :
        memoryOf? other meminfo = memoryOf? files meminfo := by
      simp only [memoryOf?, hFiles.readText]
    rw [load_of_list hList, load_of_list hOthers, hMemory,
      assemble_congr _ hBare hCaches]
    simp only [hNil]

end Loading

end CoreTally.Sysfs
