import CoreTally.Proofs.Sysfs.CacheOrder
import CoreTally.Proofs.Sysfs.Description
import CoreTally.Proofs.Topology.CpuList
import Mathlib.Data.List.Nodup
import Mathlib.Data.Set.Basic

/-
  What the files below a directory say about caches. A report has
  a level, a type, a size and the set of processors that share
  the cache. The processors share out the same cache in lists, of
  which each set has one, so reports are told apart as the caches
  that are read.

  Key definitions include:
    * `Sysfs.Report`
    * `Sysfs.Typed`
    * `Sysfs.Shared`
    * `Sysfs.Describes`
    * `Sysfs.Reported`

  Key theorems include:
    * `Sysfs.describes_iff`
    * `Sysfs.reported_iff`
    * `Sysfs.nodup_reports`
-/

namespace CoreTally

namespace Sysfs

------------------------------------------------------------
-- Reports
------------------------------------------------------------

/- A cache with the set of the processors that share it. -/
structure Report where
  level : UInt32
  kind : String
  size : Option UInt64
  sharing : Set UInt32

/- What a cache says, whatever the order of its processors. -/
def Cache.report (cache : Cache) : Report :=
  ⟨cache.level, cache.kind, cache.size, {id | id ∈ cache.shared}⟩

/- The type that a file says. A missing one stands for unified. -/
inductive Typed (files : Files) (path : String) : String → Prop
| stated
    {kind : List Char}
    (hSays : Says files path kind) :
    Typed files path (String.ofList kind)
| unified
    (hMissing : ∀ kind, ¬ Says files path kind) :
    Typed files path "Unified"

/-
  The processors that a file lists. A processor stands alone when
  its list is missing or malformed.
-/
inductive Shared
    (files : Files)
    (path : String)
    (id : UInt32) : Set UInt32 → Prop
| listed
    {text : List Char}
    (hSays : Says files path text)
    (hList : CpuList.WellFormed (String.ofList text)) :
    Shared files path id
      {cpu | CpuList.Denotes (String.ofList text) cpu}
| alone
    (hMissing :
      ∀ text,
        Says files path text →
          ¬ CpuList.WellFormed (String.ofList text)) :
    Shared files path id {id}

/-
  The files in a directory describe a cache of a processor. There
  is no cache without a level, and a size that is missing or
  malformed is left out.
-/
structure Describes
    (files : Files)
    (id : UInt32)
    (base : String)
    (report : Report) : Prop where
  level :
    SaysNumber files (Path.join base "level") report.level.toNat
  kind : Typed files (Path.join base "type") report.kind
  size :
    ∀ n : UInt64,
      report.size = some n ↔
        SaysSize files (Path.join base "size") n.toNat
  sharing :
    Shared files (Path.join base "shared_cpu_list") id
      report.sharing

/- A listed processor reports a cache in one of its directories. -/
def Reported
    (files : Files)
    (root : String)
    (report : Report) : Prop :=
  ∃ name id,
    Listed files root name id ∧
      ∃ entries entry,
        files.list (Path.join (Path.join root name) "cache") =
            .ok entries ∧
          entry ∈ entries ∧
          "index".toList <+: entry.toList ∧
          Describes files id
            (Path.join (Path.join (Path.join root name) "cache")
              entry)
            report

------------------------------------------------------------
-- Caches that are Read
------------------------------------------------------------

variable {files : Files}
variable {root : String}

/- The type that is read is the one that is said. -/
theorem typed_iff
    (path kind : String) :
    Typed files path kind ↔
      kind =
        ((readTrimmed? files path).map String.ofList).getD
          "Unified" := by
  constructor
  · rintro (⟨hSays⟩ | hMissing)
    · rw [(says_iff _).mp hSays]
      rfl
    · have hNone : readTrimmed? files path = none := by
        apply Option.eq_none_iff_forall_ne_some.mpr
        intro text hRead
        exact hMissing text ((says_iff text).mpr hRead)
      rw [hNone]
      rfl
  · rintro rfl
    rcases hRead : readTrimmed? files path with _ | text
    · apply Typed.unified
      intro text hSays
      rw [says_iff, hRead] at hSays
      contradiction
    · exact .stated ((says_iff text).mpr hRead)

/- The processors that share a cache, if they are listed well. -/
def sharing? (files : Files) (path : String) : Option (List UInt32) :=
  (readTrimmed? files path).bind
    fun text => CpuList.parse? (String.ofList text)

/- A list is read if it is said and well-formed. -/
theorem sharing?_eq_some_iff
    (path : String)
    (cpus : List UInt32) :
    sharing? files path = some cpus ↔
      ∃ text,
        Says files path text ∧
          CpuList.WellFormed (String.ofList text) ∧
            cpus.Pairwise (· < ·) ∧
              ∀ cpu,
                cpu ∈ cpus ↔
                  CpuList.Denotes (String.ofList text) cpu := by
  simp only [sharing?, Option.bind_eq_some_iff, says_iff,
    CpuList.parse?_eq_some_iff]

theorem sharing?_eq_none_iff
    (path : String) :
    sharing? files path = none ↔
      ∀ text,
        Says files path text →
          ¬ CpuList.WellFormed (String.ofList text) := by
  simp only [sharing?, Option.bind_eq_none_iff, says_iff,
    CpuList.parse?_eq_none_iff]

theorem shared_iff
    (path : String)
    (id : UInt32)
    (sharing : Set UInt32) :
    Shared files path id sharing ↔
      {cpu | cpu ∈ (sharing? files path).getD [id]} = sharing := by
  have hAlone : ({cpu | cpu ∈ [id]} : Set UInt32) = {id} := by
    ext cpu
    exact List.mem_singleton
  rcases hRead : sharing? files path with _ | cpus
  · have hMissing := (sharing?_eq_none_iff path).mp hRead
    rw [Option.getD_none, hAlone]
    constructor
    · rintro (⟨hSays, hList⟩ | _)
      · exact absurd hList (hMissing _ hSays)
      · rfl
    · rintro rfl
      exact .alone hMissing
  · rcases (sharing?_eq_some_iff path cpus).mp hRead with
      ⟨text, hSays, hList, -, hMem⟩
    have hDenotes :
        {cpu | cpu ∈ cpus} =
          {cpu | CpuList.Denotes (String.ofList text) cpu} :=
      Set.ext hMem
    rw [Option.getD_some, hDenotes]
    constructor
    · rintro (⟨hOther, _⟩ | hMissing)
      · rw [hSays.unique hOther]
      · exact absurd hList (hMissing text hSays)
    · rintro rfl
      exact .listed hSays hList

theorem size_iff
    (path : String)
    (size : Option UInt64) :
    (∀ n : UInt64,
        size = some n ↔ SaysSize files path n.toNat) ↔
      size = (readTrimmed? files path).bind sizeOf? := by
  simp only [← readSize?_eq_some_iff]
  exact ⟨Option.ext, fun hSame n => by rw [hSame]⟩

/- Everything that is read of a cache. -/
theorem readCache?_eq_some_iff
    (id : UInt32)
    (base : String)
    (cache : Cache) :
    readCache? files id base = some cache ↔
      (readUnsigned? files (Path.join base "level")).bind levelOf? =
          some cache.level ∧
        cache.kind =
          ((readTrimmed? files (Path.join base "type")).map
            String.ofList).getD "Unified" ∧
        cache.size =
          (readTrimmed? files (Path.join base "size")).bind sizeOf? ∧
        cache.shared =
          (sharing? files (Path.join base "shared_cpu_list")).getD
            [id] := by
  rcases cache with ⟨level, kind, size, shared⟩
  rw [readCache?]
  rcases (readUnsigned? files (Path.join base "level")).bind levelOf?
    with _ | level'
  · simp
  · simp only [sharing?, Option.some.injEq, Cache.mk.injEq, eq_comm]

/- The processors of a cache ascend. -/
theorem pairwise_shared
    {id : UInt32}
    {base : String}
    {cache : Cache}
    (hRead : readCache? files id base = some cache) :
    cache.shared.Pairwise (· < ·) := by
  rcases (readCache?_eq_some_iff id base cache).mp hRead with
    ⟨-, -, -, hShared⟩
  rw [hShared]
  rcases hList :
    sharing? files (Path.join base "shared_cpu_list") with _ | cpus
  · exact List.pairwise_singleton _ _
  · rcases (sharing?_eq_some_iff _ _).mp hList with
      ⟨_, -, -, hAscend, -⟩
    exact hAscend

/- A description is read as the cache that it describes. -/
theorem describes_iff
    (id : UInt32)
    (base : String)
    (report : Report) :
    Describes files id base report ↔
      ∃ cache,
        readCache? files id base = some cache ∧
          cache.report = report := by
  constructor
  · rintro ⟨hLevel, hKind, hSize, hSharing⟩
    let cache : Cache :=
      ⟨report.level, report.kind, report.size,
        (sharing? files (Path.join base "shared_cpu_list")).getD
          [id]⟩
    have hReport : cache.report = report := by
      rw [Cache.report, (shared_iff _ _ _).mp hSharing]
    refine ⟨cache, ?_, hReport⟩
    exact (readCache?_eq_some_iff id base cache).mpr
      ⟨(readLevel?_eq_some_iff _).mpr hLevel,
        (typed_iff _ _).mp hKind, (size_iff _ _).mp hSize, rfl⟩
  · rintro ⟨cache, hRead, rfl⟩
    rcases (readCache?_eq_some_iff id base cache).mp hRead with
      ⟨hLevel, hKind, hSize, hShared⟩
    refine ⟨(readLevel?_eq_some_iff _).mp hLevel,
      (typed_iff _ _).mpr hKind, (size_iff _ _).mpr hSize, ?_⟩
    rw [shared_iff, ← hShared]
    rfl

/- Caches whose processors ascend are told apart by their reports. -/
theorem eq_of_report_eq
    {cache other : Cache}
    (hCache : cache.shared.Pairwise (· < ·))
    (hOther : other.shared.Pairwise (· < ·))
    (hReport : cache.report = other.report) :
    cache = other := by
  rcases cache with ⟨level, kind, size, shared⟩
  rcases other with ⟨level', kind', size', shared'⟩
  simp only [Cache.report, Report.mk.injEq, Set.ext_iff,
    Set.mem_ofPred_eq] at hReport
  rcases hReport with ⟨rfl, rfl, rfl, hMem⟩
  have hNodup : shared.Nodup := hCache.imp UInt32.ne_of_lt
  have hNodup' : shared'.Nodup := hOther.imp UInt32.ne_of_lt
  have hPerm :=
    (List.perm_ext_iff_of_nodup hNodup hNodup').mpr hMem
  have hSame :=
    hPerm.eq_of_pairwise
      (fun _ _ _ _ hLess hGreater =>
        absurd hGreater (UInt32.lt_asymm hLess))
      hCache hOther
  exact congrArg (Cache.mk level kind size) hSame

------------------------------------------------------------
-- Reports of All Processors
------------------------------------------------------------

theorem mem_readCaches_iff
    (id : UInt32)
    (base : String)
    (cache : Cache) :
    cache ∈ readCaches files id base ↔
      ∃ entries entry,
        files.list base = .ok entries ∧
          entry ∈ entries ∧
          "index".toList <+: entry.toList ∧
          readCache? files id (Path.join base entry) =
            some cache := by
  have hIndex :
      ∀ entry : String,
        (after? "index" entry).isSome = true ↔
          "index".toList <+: entry.toList := by
    intro entry
    rw [Option.isSome_iff_exists]
    simp only [after?_eq_some_iff]
    exact exists_congr fun _ => eq_comm
  rw [readCaches]
  rcases files.list base with cause | entries
  · simp
  · simp only [List.mem_filterMap, List.mem_filter, hIndex,
      Except.ok.injEq]
    constructor
    · rintro ⟨entry, ⟨hEntry, hStart⟩, hRead⟩
      exact ⟨entries, entry, rfl, hEntry, hStart, hRead⟩
    · rintro ⟨_, entry, rfl, hEntry, hStart, hRead⟩
      exact ⟨entry, ⟨hEntry, hStart⟩, hRead⟩

variable {cpus : List Cpu}
variable (hSurvey : Surveyed files root cpus)
include hSurvey

/- What is reported is what the caches of the processors say. -/
theorem reported_iff
    (report : Report) :
    Reported files root report ↔
      ∃ cache ∈ uniqueCaches cpus, cache.report = report := by
  simp only [mem_uniqueCaches_iff]
  constructor
  · rintro ⟨name, id, hListed, entries, entry, hList, hEntry,
      hIndex, hDescribes⟩
    rcases (describes_iff _ _ _).mp hDescribes with
      ⟨cache, hRead, hReport⟩
    rcases hListed.exists_depicts with ⟨cpu, hDepicts, rfl⟩
    refine ⟨cache, ⟨cpu, (hSurvey.mem_iff cpu).mpr ⟨name, hDepicts⟩,
      ?_⟩, hReport⟩
    rw [hDepicts.caches, mem_readCaches_iff]
    exact ⟨entries, entry, hList, hEntry, hIndex, hRead⟩
  · rintro ⟨cache, ⟨cpu, hCpu, hCache⟩, rfl⟩
    rcases (hSurvey.mem_iff cpu).mp hCpu with ⟨name, hDepicts⟩
    rw [hDepicts.caches, mem_readCaches_iff] at hCache
    rcases hCache with
      ⟨entries, entry, hList, hEntry, hIndex, hRead⟩
    exact ⟨name, cpu.id, hDepicts.toListed, entries, entry, hList,
      hEntry, hIndex,
      (describes_iff _ _ _).mpr ⟨cache, hRead, rfl⟩⟩

/- No two caches say the same. -/
theorem nodup_reports :
    ((uniqueCaches cpus).map Cache.report).Nodup := by
  have hAscend :
      ∀ cache ∈ uniqueCaches cpus,
        cache.shared.Pairwise (· < ·) := by
    intro cache hCache
    rcases (mem_uniqueCaches_iff cpus cache).mp hCache with
      ⟨cpu, hCpu, hMem⟩
    rcases (hSurvey.mem_iff cpu).mp hCpu with ⟨name, hDepicts⟩
    rw [hDepicts.caches, mem_readCaches_iff] at hMem
    rcases hMem with ⟨_, _, -, -, -, hRead⟩
    exact pairwise_shared hRead
  apply List.Nodup.map_on _ (nodup_uniqueCaches cpus)
  intro cache hCache other hOther hReport
  exact eq_of_report_eq (hAscend cache hCache)
    (hAscend other hOther) hReport

end Sysfs

end CoreTally
