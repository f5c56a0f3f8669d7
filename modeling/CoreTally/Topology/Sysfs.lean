import CoreTally.Error
import CoreTally.Text.Lowercase
import CoreTally.Topology.CpuList
import CoreTally.Topology.Traversal

/-
  This file builds topologies from the processor tree that an
  operating system offers below a directory.

  A directory `cpuN` stands for one hardware thread. Its files
  name the socket and the core it belongs to, its greatest
  frequency and the caches it uses. A missing or malformed file
  is tolerated; only a tree without any processor is an error.

  Key definitions include:
    * `Sysfs.Cache`
    * `Sysfs.Cpu`
    * `Sysfs.readCpus`
    * `Sysfs.uniqueCaches`
    * `Sysfs.Assembly`
    * `Sysfs.load`
-/

namespace CoreTally.Sysfs

------------------------------------------------------------
-- Descriptions
------------------------------------------------------------

/- A cache: level, type, size in bytes and sharing processors. -/
structure Cache where
  level : UInt32
  kind : String
  size : Option UInt64
  shared : List UInt32
deriving DecidableEq, Repr

/- A processor: number, socket, core, frequency and caches. -/
structure Cpu where
  id : UInt32
  package : UInt32
  core : UInt32
  frequency : Option UInt64
  caches : List Cache
deriving DecidableEq, Repr

------------------------------------------------------------
-- Files with One Value
------------------------------------------------------------

/- The trimmed text of a file. -/
def readTrimmed? (files : Files) (path : String) : Option (List Char) :=
  match files.readText path with
  | .ok text => some (Text.trim text.toList)
  | .error _ => none

/- An unsigned number in a file. -/
def readUnsigned? (files : Files) (path : String) : Option UInt64 :=
  (readTrimmed? files path).bind Text.uint64?

/- A signed number in a file. -/
def readSigned? (files : Files) (path : String) : Option Int64 :=
  (readTrimmed? files path).bind Text.int64?

/- A signed number as an unsigned 32-bit one. -/
def idOf? (n : Int64) : Option UInt32 :=
  if 0 ≤ n.toInt ∧ n.toInt < UInt32.size then
    some (UInt32.ofNat n.toInt.toNat)
  else
    none

/- An unsigned number as a 32-bit one. -/
def levelOf? (n : UInt64) : Option UInt32 :=
  if n.toNat < UInt32.size then some n.toUInt32 else none

/- A product of unsigned numbers that is not too large. -/
def product? (n : UInt64) (factor : Nat) : Option UInt64 :=
  if n.toNat * factor < UInt64.size then
    some (UInt64.ofNat (n.toNat * factor))
  else
    none

/- The factor that the last letter of a size stands for. -/
def unitFactor? (letter : Char) : Option Nat :=
  if letter = 'K' ∨ letter = 'k' then some 1024
  else if letter = 'M' ∨ letter = 'm' then some (1024 * 1024)
  else if letter = 'G' ∨ letter = 'g' then some (1024 * 1024 * 1024)
  else none

/- A size in bytes, written with or without a unit. -/
def sizeOf? (text : List Char) : Option UInt64 :=
  let trimmed := Text.trim text
  match trimmed.getLast? with
  | none => none
  | some last =>
      match unitFactor? last with
      | none => Text.uint64? trimmed
      | some factor =>
          (Text.uint64? (Text.trim trimmed.dropLast)).bind fun n =>
            product? n factor

/- The start of the line with the size of the main memory. -/
def memoryLabel : List Char :=
  "MemTotal:".toList

/- The size of the main memory in bytes, given in kilobytes. -/
def memorySize? (meminfo : String) : Option UInt64 :=
  match (Text.lines meminfo.toList).find? memoryLabel.isPrefixOf with
  | none => none
  | some line =>
      match (Text.words line)[1]? with
      | none => none
      | some word => (Text.uint64? word).bind fun n => product? n 1024

------------------------------------------------------------
-- Reading the Tree
------------------------------------------------------------

/- The text behind the start of a name. -/
def after? (start name : String) : Option (List Char) :=
  if start.toList.isPrefixOf name.toList then
    some (name.toList.drop start.length)
  else
    none

/- The cache in a directory, unless its level is unreadable. -/
def readCache?
    (files : Files)
    (cpu : UInt32)
    (base : String) : Option Cache :=
  match (readUnsigned? files (Path.join base "level")).bind levelOf? with
  | none => none
  | some level =>
      let kind :=
        ((readTrimmed? files (Path.join base "type")).map
          String.ofList).getD "Unified"
      let shared :=
        (readTrimmed? files (Path.join base "shared_cpu_list")).bind
          fun text => CpuList.parse? (String.ofList text)
      let size :=
        (readTrimmed? files (Path.join base "size")).bind sizeOf?
      some ⟨level, kind, size, shared.getD [cpu]⟩

/- The caches in the `index` directories of a processor. -/
def readCaches
    (files : Files)
    (cpu : UInt32)
    (base : String) : List Cache :=
  match files.list base with
  | .error _ => []
  | .ok names =>
      (names.filter fun name => (after? "index" name).isSome).filterMap
        fun name => readCache? files cpu (Path.join base name)

/- The number in the name of a processor directory. -/
def cpuNumber? (name : String) : Option UInt32 :=
  match after? "cpu" name with
  | none => none
  | some digits =>
      if !digits.isEmpty && digits.all Char.isDigit then
        Text.uint32? digits
      else
        none

/- The processor in a directory, unless it is offline. -/
def readCpu? (files : Files) (root name : String) : Option Cpu :=
  match cpuNumber? name with
  | none => none
  | some id =>
      let base := Path.join root name
      if readUnsigned? files (Path.join base "online") = some 0 then
        none
      else
        let signed (file : String) : Option UInt32 :=
          (readSigned? files (Path.join base file)).bind idOf?
        some
          { id
            package := (signed "topology/physical_package_id").getD 0
            core := (signed "topology/core_id").getD id
            frequency :=
              readUnsigned? files (Path.join base "cpufreq/cpuinfo_max_freq")
            caches := readCaches files id (Path.join base "cache") }

/- The processors below a directory, by ascending number. -/
def readCpus (files : Files) (root : String) : Except FileError (List Cpu) :=
  match files.list root with
  | .error cause => .error cause
  | .ok names =>
      .ok ((names.filterMap (readCpu? files root)).mergeSort
        fun a b => a.id ≤ b.id)

------------------------------------------------------------
-- Caches
------------------------------------------------------------

namespace Cache

/- A missing size comes before all sizes. -/
def compareSize : Option UInt64 → Option UInt64 → Ordering
| none, none => .eq
| none, some _ => .lt
| some _, none => .gt
| some a, some b => compare a b

/- By level, then by type, size and sharing processors. -/
def order (a b : Cache) : Ordering :=
  (compare a.level b.level).then
    ((compare a.kind b.kind).then
      ((compareSize a.size b.size).then
        (List.compareLex compare a.shared b.shared)))

end Cache

/- Every cache that some processor reports, once, in order. -/
def uniqueCaches (cpus : List Cpu) : List Cache :=
  ((cpus.flatMap Cpu.caches).mergeSort
    fun a b => (Cache.order a b).isLE).eraseReps

------------------------------------------------------------
-- Assembly
------------------------------------------------------------

/-
  A topology under construction, with the positions of its
  sockets and of its cores, oldest first, and the number of the
  next core. A core is known by its socket and its number there.
-/
structure Assembly where
  topology : Topology
  chips : List (UInt32 × Nat) := []
  cores : List ((UInt32 × UInt32) × Nat) := []
  nextCore : UInt32 := 0

/- The machine that everything hangs below. -/
def rootNode : Nat := 0

namespace Assembly

/- The socket of a processor, which is added when it is new. -/
def withChip (a : Assembly) (package : UInt32) : Assembly × Nat :=
  match a.chips.lookup package with
  | some node => (a, node)
  | none =>
      let node := a.topology.size
      ({ a with
          topology :=
            a.topology.attach rootNode .chip package s!"package {package}"
          chips := a.chips ++ [(package, node)] }, node)

/- The core of a processor, which is added when it is new. -/
def withCore
    (a : Assembly)
    (chip : Nat)
    (package core : UInt32) : Assembly × Nat :=
  match a.cores.lookup (package, core) with
  | some node => (a, node)
  | none =>
      let node := a.topology.size
      ({ a with
          topology :=
            a.topology.attach chip .core a.nextCore s!"core {core}"
          cores := a.cores ++ [((package, core), node)]
          nextCore := a.nextCore + 1 }, node)

/- Set an attribute that may be missing. -/
def setUnsigned
    (t : Topology)
    (node : Nat)
    (name : String)
    (value : Option UInt64) : Topology :=
  match value with
  | none => t
  | some n => t.setAttribute node name (.uint n)

/- Add a processor below its core. -/
def addCpu (a : Assembly) (cpu : Cpu) : Assembly :=
  let (a, chip) := a.withChip cpu.package
  let (a, core) := a.withCore chip cpu.package cpu.core
  let thread := a.topology.size
  let topology := a.topology.attach core .thread cpu.id s!"cpu {cpu.id}"
  { a with
    topology := setUnsigned topology thread "max_freq_khz" cpu.frequency }

/- The socket and the core of the last processor with a number. -/
def owner? (cpus : List Cpu) (id : UInt32) : Option (UInt32 × UInt32) :=
  (cpus.reverse.find? fun cpu => cpu.id == id).map fun cpu =>
    (cpu.package, cpu.core)

/-
  The component a cache hangs below: the only core that shares
  it, else the only socket, else the machine.
-/
def cacheParent (a : Assembly) (cpus : List Cpu) (cache : Cache) : Nat :=
  let owners := (cache.shared.filterMap (owner? cpus)).eraseDups
  let packages := (owners.map Prod.fst).eraseDups
  match owners, packages with
  | [owner], _ => (a.cores.lookup owner).getD rootNode
  | _, [package] => (a.chips.lookup package).getD rootNode
  | _, _ => rootNode

/- Add a cache with a given number. -/
def addCache
    (cpus : List Cpu)
    (a : Assembly)
    (cache : Cache)
    (index : Nat) : Assembly :=
  let node := a.topology.size
  let name := s!"L{cache.level} {Text.lowercase cache.kind} cache"
  let topology :=
    ((a.topology.attach (a.cacheParent cpus cache) .cache (.ofNat index)
        name).setAttribute node "cache_level" (.uint cache.level.toUInt64))
      |>.setAttribute node "cache_type" (.text cache.kind)
  { a with topology := setUnsigned topology node "cache_size" cache.size }

end Assembly

/- The machine, with its main memory when the size is known. -/
def machine (memory : Option UInt64) : Topology :=
  let root := Topology.empty.addRoot .node 0 "machine"
  match memory with
  | none => root
  | some size =>
      let node := root.size
      (root.attach rootNode .memory 0 "main memory").setAttribute node
        "size" (.uint size)

/- The topology of some processors. -/
def assemble (memory : Option UInt64) (cpus : List Cpu) : Topology :=
  let threads := cpus.foldl Assembly.addCpu { topology := machine memory }
  ((uniqueCaches cpus).zipIdx.foldl
    (fun a (cache, index) => Assembly.addCache cpus a cache index)
    threads).topology

/-
  The topology below a directory. Its root is component 0. The
  main memory is described by a second file, if there is one.
-/
def load
    (files : Files)
    (root : String)
    (meminfo : Option String) : Except Error Topology :=
  match readCpus files root with
  | .error cause => .error (.file cause)
  | .ok [] => .error (.topology (.noCpus root))
  | .ok cpus =>
      let memory :=
        match meminfo with
        | none => none
        | some path =>
            match files.readText path with
            | .error _ => none
            | .ok text => memorySize? text
      .ok (assemble memory cpus)

end CoreTally.Sysfs
