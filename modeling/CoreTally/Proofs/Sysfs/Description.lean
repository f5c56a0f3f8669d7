import CoreTally.Proofs.Sysfs.Values
import Mathlib.Data.List.Pairwise
import Mathlib.Data.List.Perm.Basic

/-
  What the files below a directory say about its processors:
  which of them are listed and online, and the socket and the
  core of each. The processors that are read are these, in
  ascending order, as long as no two names denote one number.

  Key definitions include:
    * `Sysfs.Denotes`
    * `Sysfs.Unambiguous`
    * `Sysfs.Listed`
    * `Sysfs.Stated`
    * `Sysfs.Sited`
    * `Sysfs.Depicts`
    * `Sysfs.Surveyed`
    * `Sysfs.survey`

  Key theorems include:
    * `Sysfs.cpuNumber?_eq_some_iff`
    * `Sysfs.depicts_iff`
    * `Sysfs.readCpus_eq`
    * `Sysfs.surveyed_of_list`
    * `Sysfs.load_eq_ok_iff`
-/

namespace CoreTally

namespace Sysfs

------------------------------------------------------------
-- Names
------------------------------------------------------------

/- A name is `cpu` with a row of digits for a number behind it. -/
def Denotes (name : String) (number : Nat) : Prop :=
  ∃ digits : List Char,
    name.toList = "cpu".toList ++ digits ∧
      digits ≠ [] ∧
      (∀ c ∈ digits, c.isDigit = true) ∧
      Text.digitsValue 10 digits = number

/- No two of the names denote the same number. -/
def Unambiguous (names : List String) : Prop :=
  names.Pairwise fun one other =>
    ∀ number, ¬ (Denotes one number ∧ Denotes other number)

/- The number that a name denotes, however large it is. -/
def numberOf? (name : String) : Option Nat :=
  match after? "cpu" name with
  | none => none
  | some digits =>
      if !digits.isEmpty && digits.all Char.isDigit then
        some (Text.digitsValue 10 digits)
      else
        none

theorem after?_eq_some_iff
    (start name : String)
    (rest : List Char) :
    after? start name = some rest ↔
      name.toList = start.toList ++ rest := by
  rw [after?]
  split
  · rename_i hStart
    rcases List.isPrefixOf_iff_prefix.mp hStart with
      ⟨tail, hTail⟩
    rw [← hTail, ← String.length_toList, List.drop_left]
    simp
  · rename_i hStart
    constructor
    · exact nofun
    · intro hName
      rw [hName] at hStart
      exact absurd
        (List.isPrefixOf_iff_prefix.mpr (List.prefix_append _ _))
        hStart

theorem denotes_iff
    (name : String)
    (number : Nat) :
    Denotes name number ↔ numberOf? name = some number := by
  rw [Denotes, numberOf?]
  constructor
  · rintro ⟨digits, hName, hSome, hDigits, hValue⟩
    rw [(after?_eq_some_iff _ _ _).mpr hName]
    simp [hSome, hValue, List.all_eq_true.mpr hDigits]
  · intro hNumber
    split at hNumber
    · contradiction
    · rename_i digits hAfter
      split at hNumber
      · rename_i hDigits
        simp only [Bool.and_eq_true, Bool.not_eq_true',
          List.isEmpty_eq_false_iff, List.all_eq_true] at hDigits
        exact ⟨digits, (after?_eq_some_iff _ _ _).mp hAfter,
          hDigits.1, hDigits.2, Option.some.inj hNumber⟩
      · contradiction

/- The number of a processor is the one that its name denotes. -/
theorem cpuNumber?_eq_some_iff
    (name : String)
    (id : UInt32) :
    cpuNumber? name = some id ↔ Denotes name id.toNat := by
  rw [denotes_iff, cpuNumber?, numberOf?]
  rcases after? "cpu" name with _ | digits
  · simp
  · simp only
    split
    · rename_i hDigits
      simp only [Bool.and_eq_true, Bool.not_eq_true',
        List.isEmpty_eq_false_iff, List.all_eq_true] at hDigits
      rw [Text.uint32?_digits hDigits.1 hDigits.2,
        Option.some.injEq]
    · simp

/- To tell names apart it is enough to look at their numbers. -/
theorem unambiguous_iff
    (names : List String) :
    Unambiguous names ↔ (names.filterMap numberOf?).Nodup := by
  rw [Unambiguous, List.Nodup, List.pairwise_filterMap]
  simp only [denotes_iff]
  apply iff_of_eq
  congr 1
  funext one other
  apply propext
  constructor
  · rintro hApart number hOne number' hOther rfl
    exact hApart number ⟨hOne, hOther⟩
  · rintro hApart number ⟨hOne, hOther⟩
    exact hApart number hOne number hOther rfl

theorem Unambiguous.eq
    {names : List String}
    (hNames : Unambiguous names)
    {one other : String}
    (hOne : one ∈ names)
    (hOther : other ∈ names)
    {number : Nat}
    (hNumber : Denotes one number)
    (hAgain : Denotes other number) :
    one = other := by
  by_contra hDiffer
  have hSymmetric :
      Std.Symm fun one other =>
        ∀ number, ¬ (Denotes one number ∧ Denotes other number) :=
    ⟨fun _ _ hApart number hBoth => hApart number hBoth.symm⟩
  exact List.Pairwise.forall hNames hOne hOther hDiffer number
    ⟨hNumber, hAgain⟩

------------------------------------------------------------
-- Numbers in Files
------------------------------------------------------------

/-
  The number that a file states. The fallback stands in for a
  file that is missing or malformed, and for a number that is
  negative or too large.
-/
inductive Stated
    (files : Files)
    (path : String)
    (fallback : UInt32) : UInt32 → Prop
| number
    (id : UInt32)
    (hSays : SaysInteger files path id.toNat) :
    Stated files path fallback id
| fallback
    (hMissing :
      ∀ id : UInt32, ¬ SaysInteger files path id.toNat) :
    Stated files path fallback fallback

theorem stated_iff
    (files : Files)
    (path : String)
    (fallback id : UInt32) :
    Stated files path fallback id ↔
      ((readSigned? files path).bind idOf?).getD fallback = id := by
  constructor
  · rintro (⟨_, hSays⟩ | hMissing)
    · rw [(readId?_eq_some_iff id).mpr hSays, Option.getD_some]
    · have hNone : (readSigned? files path).bind idOf? = none := by
        apply Option.eq_none_iff_forall_ne_some.mpr
        intro id hId
        exact hMissing id ((readId?_eq_some_iff id).mp hId)
      rw [hNone, Option.getD_none]
  · rintro rfl
    rcases hRead : (readSigned? files path).bind idOf? with _ | id
    · apply Stated.fallback
      intro id hSays
      rw [← readId?_eq_some_iff, hRead] at hSays
      contradiction
    · exact .number id ((readId?_eq_some_iff id).mp hRead)

------------------------------------------------------------
-- Processors
------------------------------------------------------------

/- A processor is listed below a directory and not offline. -/
structure Listed
    (files : Files)
    (root name : String)
    (id : UInt32) : Prop where
  entry : ∃ names, files.list root = .ok names ∧ name ∈ names
  number : Denotes name id.toNat
  online :
    ¬ SaysNumber files (Path.join (Path.join root name) "online") 0

/- A listed processor belongs to a socket and to a core. -/
structure Sited
    (files : Files)
    (root name : String)
    (id package core : UInt32) : Prop
    extends Listed files root name id where
  inPackage :
    Stated files
      (Path.join (Path.join root name)
        "topology/physical_package_id") 0 package
  inCore :
    Stated files
      (Path.join (Path.join root name) "topology/core_id") id core

/- A listed processor is as its files say. -/
structure Depicts
    (files : Files)
    (root name : String)
    (cpu : Cpu) : Prop
    extends Sited files root name cpu.id cpu.package cpu.core where
  frequency :
    ∀ n : UInt64,
      cpu.frequency = some n ↔
        SaysNumber files
          (Path.join (Path.join root name)
            "cpufreq/cpuinfo_max_freq") n.toNat
  caches :
    cpu.caches =
      readCaches files cpu.id
        (Path.join (Path.join root name) "cache")

variable {files : Files}
variable {root name : String}

theorem Denotes.unique
    {number other : Nat}
    (hNumber : Denotes name number)
    (hOther : Denotes name other) :
    number = other := by
  rw [denotes_iff] at hNumber hOther
  rw [hNumber] at hOther
  exact Option.some.inj hOther

theorem Stated.unique
    {path : String}
    {fallback id other : UInt32}
    (hId : Stated files path fallback id)
    (hOther : Stated files path fallback other) :
    id = other := by
  rw [stated_iff] at hId hOther
  exact hId.symm.trans hOther

/- A processor that is read has the number of its name. -/
theorem denotes_of_readCpu?
    {cpu : Cpu}
    (hRead : readCpu? files root name = some cpu) :
    Denotes name cpu.id.toNat := by
  rw [readCpu?] at hRead
  split at hRead
  · contradiction
  · rename_i id hNumber
    rw [cpuNumber?_eq_some_iff] at hNumber
    simp only at hRead
    split at hRead
    · contradiction
    · rw [← Option.some.inj hRead]
      exact hNumber

/- A processor is online unless it reads 0. -/
theorem online_iff
    (path : String) :
    ¬ SaysNumber files path 0 ↔
      readUnsigned? files path ≠ some 0 := by
  rw [ne_eq, readUnsigned?_eq_some_iff]
  rfl

theorem frequency_iff
    (path : String)
    (frequency : Option UInt64) :
    (∀ n : UInt64,
        frequency = some n ↔ SaysNumber files path n.toNat) ↔
      frequency = readUnsigned? files path := by
  simp only [← readUnsigned?_eq_some_iff]
  exact ⟨Option.ext, fun hSame n => by rw [hSame]⟩

/- What is read from a listed directory is what its files say. -/
theorem depicts_iff
    {names : List String}
    (hNames : files.list root = .ok names)
    (cpu : Cpu) :
    Depicts files root name cpu ↔
      name ∈ names ∧ readCpu? files root name = some cpu := by
  constructor
  · rintro ⟨⟨⟨⟨_, hList, hMem⟩, hNumber, hOnline⟩, hPackage, hCore⟩,
      hFrequency, hCaches⟩
    rw [hNames] at hList
    refine ⟨Except.ok.inj hList ▸ hMem, ?_⟩
    rw [readCpu?, (cpuNumber?_eq_some_iff _ _).mpr hNumber]
    rw [stated_iff] at hPackage hCore
    rw [online_iff] at hOnline
    rw [frequency_iff] at hFrequency
    simp [hOnline, hPackage, hCore, ← hFrequency, ← hCaches]
  · rintro ⟨hMem, hRead⟩
    rw [readCpu?] at hRead
    split at hRead
    · contradiction
    · rename_i id hNumber
      rw [cpuNumber?_eq_some_iff] at hNumber
      simp only at hRead
      split at hRead
      · contradiction
      · rename_i hOnline
        rw [← Option.some.inj hRead]
        exact
          { entry := ⟨names, hNames, hMem⟩
            number := hNumber
            online := (online_iff _).mpr hOnline
            inPackage := by rw [stated_iff]
            inCore := by rw [stated_iff]
            frequency := by rw [frequency_iff]
            caches := by dsimp only }

/- Every listed processor is read. -/
theorem Listed.exists_depicts
    {id : UInt32}
    (hListed : Listed files root name id) :
    ∃ cpu, Depicts files root name cpu ∧ cpu.id = id := by
  rcases hListed.entry with ⟨names, hNames, hMem⟩
  rcases hRead : readCpu? files root name with _ | cpu
  · simp [readCpu?, (online_iff _).mp hListed.online,
      (cpuNumber?_eq_some_iff _ _).mpr hListed.number] at hRead
  · refine ⟨cpu, (depicts_iff hNames cpu).mpr ⟨hMem, hRead⟩, ?_⟩
    exact UInt32.toNat_inj.mp
      ((denotes_of_readCpu? hRead).unique hListed.number)

------------------------------------------------------------
-- All Processors
------------------------------------------------------------

/-
  The processors of a directory in ascending order. Each of them
  comes from one name.
-/
structure Surveyed
    (files : Files)
    (root : String)
    (cpus : List Cpu) : Prop where
  ascending : cpus.Pairwise fun one other => one.id < other.id
  mem_iff : ∀ cpu, cpu ∈ cpus ↔ ∃ name, Depicts files root name cpu
  name_eq :
    ∀ one other id,
      Listed files root one id → Listed files root other id →
        one = other

/- The processors with a name, sorted by number. -/
def survey
    (files : Files)
    (root : String)
    (names : List String) : List Cpu :=
  (names.filterMap (readCpu? files root)).mergeSort
    fun a b => a.id ≤ b.id

theorem readCpus_eq
    (files : Files)
    (root : String) :
    readCpus files root =
      (files.list root).map (survey files root) := by
  rw [readCpus]
  rcases files.list root with _ | names <;> rfl

theorem mem_survey_iff
    (names : List String)
    (cpu : Cpu) :
    cpu ∈ survey files root names ↔
      ∃ name ∈ names, readCpu? files root name = some cpu := by
  rw [survey, List.mem_mergeSort, List.mem_filterMap]

/- Names that can be told apart bring processors that ascend. -/
theorem pairwise_survey
    {names : List String}
    (hNames : Unambiguous names) :
    (survey files root names).Pairwise
      fun one other => one.id < other.id := by
  have hApart :
      (names.filterMap (readCpu? files root)).Pairwise
        fun one other => one.id ≠ other.id := by
    refine List.Pairwise.filterMap _ ?_ hNames
    intro one other hDiffer cpu hCpu cpu' hCpu' hSame
    have hNumber := denotes_of_readCpu? hCpu
    rw [hSame] at hNumber
    exact hDiffer _ ⟨hNumber, denotes_of_readCpu? hCpu'⟩
  have hSorted :=
    @List.pairwise_mergeSort _ (fun a b : Cpu => a.id ≤ b.id)
      (by
        intro one other third
        simpa using UInt32.le_trans)
      (by
        intro one other
        simpa using UInt32.le_total one.id other.id)
      (names.filterMap (readCpu? files root))
  have hStrict :=
    hSorted.and
      ((List.mergeSort_perm _ _).symm.pairwise hApart Ne.symm)
  refine hStrict.imp ?_
  rintro one other ⟨hLe, hNe⟩
  exact UInt32.lt_of_le_of_ne (of_decide_eq_true hLe) hNe

/- The processors are known by what is read and by their order. -/
theorem survey_eq
    {names : List String}
    (hNames : Unambiguous names)
    {cpus : List Cpu}
    (hAscend : cpus.Pairwise fun one other => one.id < other.id)
    (hRead : (names.filterMap (readCpu? files root)).Perm cpus) :
    survey files root names = cpus :=
  List.Perm.eq_of_pairwise
    (fun _ _ _ _ hLess hGreater =>
      absurd hGreater (UInt32.lt_asymm hLess))
    (pairwise_survey hNames) hAscend
    ((List.mergeSort_perm _ _).trans hRead)

theorem surveyed_of_list
    {names : List String}
    (hList : files.list root = .ok names)
    (hNames : Unambiguous names) :
    Surveyed files root (survey files root names) := by
  refine ⟨pairwise_survey hNames, ?_, ?_⟩
  · intro cpu
    rw [mem_survey_iff]
    simp only [depicts_iff hList]
  · rintro one other id ⟨⟨_, hOne, hMem⟩, hNumber, _⟩
      ⟨⟨_, hOther, hMem'⟩, hAgain, _⟩
    rw [hList] at hOne hOther
    rw [← Except.ok.inj hOne] at hMem
    rw [← Except.ok.inj hOther] at hMem'
    exact hNames.eq hMem hMem' hNumber hAgain

------------------------------------------------------------
-- Loading
------------------------------------------------------------

/- The size of the main memory, if a second file states it. -/
def memoryOf? (files : Files) (meminfo : Option String) : Option UInt64 :=
  meminfo.bind fun path =>
    match files.readText path with
    | .error _ => none
    | .ok text => memorySize? text

theorem load_of_error
    {cause : FileError}
    (hList : files.list root = .error cause)
    (meminfo : Option String) :
    load files root meminfo = .error (.file cause) := by
  unfold load
  rw [readCpus_eq, hList]
  rfl

/- Only a directory without processors can not be loaded. -/
theorem load_of_list
    {names : List String}
    (hList : files.list root = .ok names)
    (meminfo : Option String) :
    load files root meminfo =
      if survey files root names = [] then
        .error (.topology (.noCpus root))
      else
        .ok (assemble (memoryOf? files meminfo)
          (survey files root names)) := by
  have hRead :
      readCpus files root = .ok (survey files root names) := by
    rw [readCpus_eq, hList]
    rfl
  unfold load
  rw [hRead]
  rcases survey files root names with _ | ⟨cpu, cpus⟩
  · rfl
  · cases meminfo <;> rfl

/- What is loaded is assembled from the processors. -/
theorem load_eq_ok_iff
    (meminfo : Option String)
    (t : Topology) :
    load files root meminfo = .ok t ↔
      ∃ names,
        files.list root = .ok names ∧
          survey files root names ≠ [] ∧
            t = assemble (memoryOf? files meminfo)
              (survey files root names) := by
  rcases hList : files.list root with cause | names
  · simp [load_of_error hList]
  · rw [load_of_list hList]
    constructor
    · intro hLoad
      split at hLoad
      · contradiction
      · rename_i hSome
        exact ⟨names, rfl, hSome, (Except.ok.inj hLoad).symm⟩
    · rintro ⟨_, hNames, hSome, rfl⟩
      cases Except.ok.inj hNames
      rw [if_neg hSome]

end Sysfs

end CoreTally
