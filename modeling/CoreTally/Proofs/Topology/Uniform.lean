import CoreTally.Proofs.Topology.Growth
import Mathlib.Algebra.GroupWithZero.Nat

/-
  Machines of alike sockets and cores. Chips, cores and hardware
  threads are numbered through, and each of them hangs below the
  one whose number is the quotient of its own: as many threads
  below every core, and as many cores below every chip.

  Key definitions include:
    * `Topology.Branches`
    * `Topology.Shape`
    * `Topology.Stage`
    * `Topology.Draft.Counts`
    * `Topology.Sole`
    * `Topology.Arranged`

  Key theorems include:
    * `Topology.Stage.attach`
    * `Topology.Draft.Counts.addCore`
    * `Topology.Draft.Counts.addSocket`
    * `Topology.stage_uniform`
    * `Topology.isSome_find?_uniform`
    * `Topology.arranged_uniform`
-/

namespace CoreTally.Topology

variable {t larger : Topology}
variable {kind upper lower : ComponentKind}
variable {parent width : Nat}

------------------------------------------------------------
-- Branches
------------------------------------------------------------

/-
  The components of a kind are numbered from 0 by position. They
  hang below the components of another kind in turn, `width` of
  them below each.
-/
def Branches
    (t : Topology)
    (upper lower : ComponentKind)
    (width : Nat) : Prop :=
  ∀ k node : Nat,
    (t.ofKind lower)[k]? = some node →
      ∃ parent,
        (t.ofKind upper)[k / width]? = some parent ∧
          t.Hangs node lower (.ofNat k) parent

/- What is listed for a kind has kept its place in the list. -/
def Keeps (t larger : Topology) : Prop :=
  ∀ (kind : ComponentKind) (k node : Nat),
    (t.ofKind kind)[k]? = some node →
      (larger.ofKind kind)[k]? = some node

theorem Keeps.refl
    (t : Topology) :
    t.Keeps t :=
  fun _ _ _ hNode => hNode

theorem Keeps.trans
    {largest : Topology}
    (hFirst : t.Keeps larger)
    (hSecond : larger.Keeps largest) :
    t.Keeps largest :=
  fun kind k node hNode =>
    hSecond kind k node (hFirst kind k node hNode)

/- The new component comes behind all others of its kind. -/
theorem Adds.keeps
    {id : UInt32}
    (hAdds : t.Adds larger parent kind id) :
    t.Keeps larger := by
  intro other k node hNode
  by_cases hKind : other = kind
  · subst hKind
    have hOld := (List.getElem?_eq_some_iff.mp hNode).1
    rwa [hAdds.ofKind_same, List.getElem?_append_left hOld]
  · rwa [hAdds.ofKind_of_ne hKind]

/- A component of a third kind changes nothing. -/
theorem Branches.adds_other
    {id : UInt32}
    (hBranches : t.Branches upper lower width)
    (hAdds : t.Adds larger parent kind id)
    (hOther : lower ≠ kind) :
    larger.Branches upper lower width := by
  intro k node hNode
  rw [hAdds.ofKind_of_ne hOther] at hNode
  rcases hBranches k node hNode with ⟨above, hAbove, hHangs⟩
  exact ⟨above, hAdds.keeps _ _ _ hAbove, hAdds.kept hHangs⟩

/- The next component must be numbered and hung up in turn. -/
theorem Branches.adds_same
    (hBranches : t.Branches upper lower width)
    (hAdds :
      t.Adds larger parent lower (.ofNat (t.ofKind lower).length))
    (hParent :
      (t.ofKind upper)[(t.ofKind lower).length / width]? =
        some parent) :
    larger.Branches upper lower width := by
  intro k node hNode
  rw [hAdds.ofKind_same] at hNode
  rcases Nat.lt_or_ge k (t.ofKind lower).length with hOld | hNew
  · rw [List.getElem?_append_left hOld] at hNode
    rcases hBranches k node hNode with ⟨above, hAbove, hHangs⟩
    exact ⟨above, hAdds.keeps _ _ _ hAbove, hAdds.kept hHangs⟩
  · rw [List.getElem?_append_right hNew,
      List.getElem?_singleton] at hNode
    split at hNode
    · rename_i hLast
      have hIndex : k = (t.ofKind lower).length := by omega
      subst hIndex
      rw [← Option.some.inj hNode]
      exact ⟨parent, hAdds.keeps _ _ _ hParent, hAdds.new⟩
    · contradiction

------------------------------------------------------------
-- Machines under Construction
------------------------------------------------------------

/- How many components are below a machine, a chip and a core. -/
structure Shape where
  sockets : Nat
  cores : Nat
  threads : Nat

/- Below what the components of a kind hang, and how many of them. -/
def Shape.above?
    (shape : Shape) :
    ComponentKind → Option (ComponentKind × Nat)
| .chip => some (.node, shape.sockets)
| .core => some (.chip, shape.cores)
| .thread => some (.core, shape.threads)
| _ => none

/- The numbers of components of a machine, by kind. -/
def tally (chips cores threads : Nat) : ComponentKind → Nat
| .node => 1
| .chip => chips
| .core => cores
| .thread => threads
| _ => 0

/- A part of a machine with so many components of each kind. -/
structure Stage
    (shape : Shape)
    (count : ComponentKind → Nat)
    (t : Topology) : Prop where
  rooted : t.Rooted
  machine : (t.ofKind .node)[0]? = some 0
  branches :
    ∀ upper lower width,
      shape.above? lower = some (upper, width) →
        t.Branches upper lower width
  length : ∀ kind, (t.ofKind kind).length = count kind
  size : t.size = (ComponentKind.all.map count).sum

variable {shape : Shape}
variable {count next : ComponentKind → Nat}
variable {chips cores threads : Nat}

/- A machine starts with its root. -/
theorem stage_start
    (shape : Shape) :
    Stage shape (tally 0 0 0) (empty.addRoot .node 0 "machine") := by
  have hLength :
      ∀ kind,
        ((empty.addRoot .node 0 "machine").ofKind kind).length =
          tally 0 0 0 kind := by
    intro kind
    cases kind <;> rfl
  refine ⟨rooted_addRoot_empty _ _ _, rfl, ?_, hLength, rfl⟩
  intro upper lower width hAbove k node hNode
  have hNone : tally 0 0 0 lower = 0 := by
    cases lower <;> first | rfl | contradiction
  rw [List.eq_nil_of_length_eq_zero ((hLength lower).trans hNone)]
    at hNode
  contradiction

/- A component is added below one that is listed. -/
theorem adds_attach_listed
    {k : Nat}
    (hParent : (t.ofKind upper)[k]? = some parent)
    (kind : ComponentKind)
    (id : UInt32)
    (name : String) :
    t.Adds (t.attach parent kind id name) parent kind id := by
  rcases (mem_ofKind_iff upper parent).mp
    (List.mem_of_getElem? hParent) with ⟨_, hHas⟩
  exact adds_attach hHas.lt_size kind id name

/- The next component of a kind is attached in its turn. -/
theorem Stage.attach
    (hStage : t.Stage shape count)
    (hAbove : shape.above? kind = some (upper, width))
    (hParent :
      (t.ofKind upper)[count kind / width]? = some parent)
    (hNext :
      ∀ other,
        next other =
          if other = kind then count kind + 1 else count other)
    (name : String) :
    (t.attach parent kind (.ofNat (count kind)) name).Stage shape
      next := by
  have hAdds :=
    adds_attach_listed hParent kind (.ofNat (count kind)) name
  rw [← hStage.length kind] at hAdds hParent ⊢
  refine ⟨hAdds.rooted hStage.rooted,
    hAdds.keeps _ _ _ hStage.machine, ?_, ?_, ?_⟩
  · intro otherUpper lower otherWidth hOther
    have hBranches := hStage.branches _ _ _ hOther
    by_cases hKind : lower = kind
    · subst hKind
      rw [hAbove] at hOther
      cases hOther
      exact hBranches.adds_same hAdds hParent
    · exact hBranches.adds_other hAdds hKind
  · intro other
    rw [hNext]
    split
    · rename_i hKind
      rw [hKind, hAdds.ofKind_same, List.length_append,
        hStage.length]
      rfl
    · rename_i hKind
      rw [hAdds.ofKind_of_ne hKind, hStage.length]
  · rw [hAdds.size, hStage.size]
    cases kind <;> simp [ComponentKind.all, hNext] <;> omega

/- The new component is the next one of its kind. -/
theorem Stage.getElem?_new
    {id : UInt32}
    (hStage : t.Stage shape count)
    (hAdds : t.Adds larger parent kind id) :
    (larger.ofKind kind)[count kind]? = some t.size := by
  rw [hAdds.ofKind_same, ← hStage.length kind]
  exact List.getElem?_concat_length

------------------------------------------------------------
-- Loops
------------------------------------------------------------

/- What every pass of a counted loop carries on holds at its end. -/
theorem foldl_range
    {α : Type}
    {start : α}
    (motive : Nat → α → Prop)
    {step : α → Nat → α}
    (count : Nat)
    (hStart : motive 0 start)
    (hStep :
      ∀ k grown,
        k < count → motive k grown →
          motive (k + 1) (step grown k)) :
    motive count ((List.range count).foldl step start) := by
  induction count with
  | zero => exact hStart
  | succ count ih =>
      rw [List.range_succ, List.foldl_concat]
      exact hStep count _ (Nat.lt_succ_self count)
        (ih fun k t hLess => hStep k t (Nat.lt_succ_of_lt hLess))

/- The last of some numbers in turn belongs to the present turn. -/
theorem turn_div
    {turn width k : Nat}
    (hLess : k < width) :
    (turn * width + k) / width = turn := by
  rw [Nat.mul_comm, Nat.mul_add_div (Nat.zero_lt_of_lt hLess),
    Nat.div_eq_of_lt hLess, Nat.add_zero]

namespace Draft

/-
  A draft has so many components of each kind. The number of the
  next thread says how many threads there are, and the number of
  the next core how many cores are complete.
-/
structure Counts
    (shape : Shape)
    (chips cores threads complete : Nat)
    (draft : Draft) : Prop where
  stage : draft.topology.Stage shape (tally chips cores threads)
  nextCore : draft.nextCore = .ofNat complete
  nextThread : draft.nextThread = .ofNat threads

variable {draft : Draft}
variable {complete : Nat}

/- A thread is numbered by the threads in front of it. -/
theorem Counts.addThread
    (hCounts : draft.Counts shape chips cores threads complete)
    {core : Nat}
    (hCore :
      (draft.topology.ofKind .core)[threads / shape.threads]? =
        some core) :
    (draft.addThread core).Counts shape chips cores (threads + 1)
        complete ∧
      draft.topology.Keeps (draft.addThread core).topology := by
  have hKeeps :=
    (adds_attach_listed hCore .thread draft.nextThread
      s!"cpu {draft.nextThread}").keeps
  refine ⟨⟨?_, hCounts.nextCore, ?_⟩, hKeeps⟩
  · rw [Draft.addThread, hCounts.nextThread]
    exact hCounts.stage.attach rfl hCore
      (by intro other; cases other <;> rfl) _
  · rw [Draft.addThread, hCounts.nextThread]
    exact (UInt32.ofNat_add threads 1).symm

/- A core brings its hardware threads, which are the next ones. -/
theorem Counts.addCore
    (hCounts :
      draft.Counts shape chips cores (cores * shape.threads) cores)
    {chip : Nat}
    (hChip :
      (draft.topology.ofKind .chip)[cores / shape.cores]? =
        some chip) :
    (draft.addCore shape.threads chip).Counts shape chips
        (cores + 1) ((cores + 1) * shape.threads) (cores + 1) ∧
      draft.topology.Keeps
        (draft.addCore shape.threads chip).topology := by
  let withCore :=
    { draft with
      topology :=
        draft.topology.attach chip .core draft.nextCore
          s!"core {draft.nextCore}" }
  have hAdds :
      draft.topology.Adds withCore.topology chip .core
        draft.nextCore :=
    adds_attach_listed hChip _ _ _
  have hCore :
      withCore.Counts shape chips (cores + 1)
        (cores * shape.threads) cores := by
    refine ⟨?_, hCounts.nextCore, hCounts.nextThread⟩
    dsimp only [withCore]
    rw [hCounts.nextCore]
    exact hCounts.stage.attach rfl hChip
      (by intro other; cases other <;> rfl) _
  have hNode :
      (withCore.topology.ofKind .core)[cores]? =
        some draft.topology.size :=
    hCounts.stage.getElem?_new hAdds
  have hThreads :
      ((List.range shape.threads).foldl
          (fun draft' _ => draft'.addThread draft.topology.size)
          withCore).Counts shape chips (cores + 1)
            (cores * shape.threads + shape.threads) cores ∧
        withCore.topology.Keeps
          ((List.range shape.threads).foldl
            (fun draft' _ => draft'.addThread draft.topology.size)
            withCore).topology := by
    apply foldl_range
      (fun k grown =>
        Counts shape chips (cores + 1) (cores * shape.threads + k)
            cores grown ∧
          withCore.topology.Keeps grown.topology)
    · exact ⟨hCore, .refl _⟩
    · rintro k grown hLess ⟨hGrown, hKeeps⟩
      have hParent :
          (grown.topology.ofKind .core)[
              (cores * shape.threads + k) / shape.threads]? =
            some draft.topology.size := by
        rw [turn_div hLess]
        exact hKeeps _ _ _ hNode
      rcases hGrown.addThread hParent with ⟨hNext, hMore⟩
      exact ⟨hNext, hKeeps.trans hMore⟩
  rcases hThreads with ⟨hComplete, hKeeps⟩
  rw [Nat.succ_mul]
  refine ⟨⟨hComplete.stage, ?_, hComplete.nextThread⟩,
    hAdds.keeps.trans hKeeps⟩
  exact (congrArg (· + 1) hComplete.nextCore).trans
    (UInt32.ofNat_add cores 1).symm

/- A socket brings its cores. -/
theorem Counts.addSocket
    (hCounts :
      draft.Counts shape chips (chips * shape.cores)
        (chips * shape.cores * shape.threads)
        (chips * shape.cores))
    (hChips : chips < shape.sockets) :
    (draft.addSocket shape.cores shape.threads 0
        (.ofNat chips)).Counts shape (chips + 1)
      ((chips + 1) * shape.cores)
      ((chips + 1) * shape.cores * shape.threads)
      ((chips + 1) * shape.cores) := by
  let withChip :=
    { draft with
      topology :=
        draft.topology.attach 0 .chip (.ofNat chips)
          s!"package {UInt32.ofNat chips}" }
  have hRoot :
      (draft.topology.ofKind .node)[chips / shape.sockets]? =
        some 0 := by
    rw [Nat.div_eq_of_lt hChips]
    exact hCounts.stage.machine
  have hAdds :
      draft.topology.Adds withChip.topology 0 .chip
        (.ofNat chips) :=
    adds_attach_listed hRoot _ _ _
  have hChip :
      withChip.Counts shape (chips + 1) (chips * shape.cores)
        (chips * shape.cores * shape.threads)
        (chips * shape.cores) :=
    ⟨hCounts.stage.attach rfl hRoot
        (by intro other; cases other <;> rfl) _,
      hCounts.nextCore, hCounts.nextThread⟩
  have hNode :
      (withChip.topology.ofKind .chip)[chips]? =
        some draft.topology.size :=
    hCounts.stage.getElem?_new hAdds
  rw [Nat.succ_mul]
  refine (foldl_range
    (fun k grown =>
      Counts shape (chips + 1) (chips * shape.cores + k)
          ((chips * shape.cores + k) * shape.threads)
          (chips * shape.cores + k) grown ∧
        withChip.topology.Keeps grown.topology) shape.cores
    ⟨hChip, .refl _⟩ ?_).1
  rintro k grown hLess ⟨hGrown, hKeeps⟩
  have hParent :
      (grown.topology.ofKind .chip)[
          (chips * shape.cores + k) / shape.cores]? =
        some draft.topology.size := by
    rw [turn_div hLess]
    exact hKeeps _ _ _ hNode
  rcases hGrown.addCore hParent with ⟨hNext, hMore⟩
  exact ⟨hNext, hKeeps.trans hMore⟩

end Draft

/- A machine of alike sockets is complete with the last of them. -/
theorem stage_uniform
    (sockets cores threads : UInt32) :
    (uniform sockets cores threads).Stage
      ⟨sockets.toNat, cores.toNat, threads.toNat⟩
      (tally sockets.toNat (sockets.toNat * cores.toNat)
        (sockets.toNat * cores.toNat * threads.toNat)) := by
  let shape : Shape :=
    ⟨sockets.toNat, cores.toNat, threads.toNat⟩
  let start : Draft :=
    { topology := empty.addRoot .node 0 "machine" }
  have hStart : start.Counts shape 0 0 0 0 :=
    ⟨stage_start shape, rfl, rfl⟩
  refine (foldl_range
    (fun socket grown =>
      Draft.Counts shape socket (socket * shape.cores)
        (socket * shape.cores * shape.threads)
        (socket * shape.cores) grown) sockets.toNat ?_ ?_).stage
  · rw [Nat.zero_mul, Nat.zero_mul]
    exact hStart
  · intro socket grown hLess hGrown
    exact hGrown.addSocket hLess

------------------------------------------------------------
-- Components by Number
------------------------------------------------------------

/- A component is the only one with its kind and its number. -/
def Sole
    (t : Topology)
    (kind : ComponentKind)
    (id : UInt32)
    (node : Nat) : Prop :=
  ∀ other, t.HasAt id kind other ↔ other = node

/- A numbered component stands at its number in the list. -/
theorem Branches.exists_index
    (hBranches : t.Branches upper lower width)
    {id : UInt32}
    {node : Nat}
    (hHas : t.HasAt id lower node) :
    ∃ k, (t.ofKind lower)[k]? = some node ∧ id = .ofNat k := by
  have hMem := (mem_ofKind_iff lower node).mpr ⟨id, hHas⟩
  rcases List.mem_iff_getElem?.mp hMem with ⟨k, hNode⟩
  rcases hBranches k node hNode with ⟨_, -, hHangs⟩
  exact ⟨k, hNode, (hHas.unique hHangs.1).1⟩

/- Numbers that fit 32 bits tell the components of a kind apart. -/
theorem Branches.sole
    (hBranches : t.Branches upper lower width)
    (hFew : (t.ofKind lower).length ≤ UInt32.size)
    {k node : Nat}
    (hNode : (t.ofKind lower)[k]? = some node) :
    t.Sole lower (.ofNat k) node := by
  intro other
  constructor
  · intro hHas
    rcases hBranches.exists_index hHas with ⟨j, hOther, hId⟩
    have hLess := (List.getElem?_eq_some_iff.mp hNode).1
    have hOtherLess := (List.getElem?_eq_some_iff.mp hOther).1
    have hIndex := congrArg UInt32.toNat hId
    rw [UInt32.toNat_ofNat_of_lt' (by omega),
      UInt32.toNat_ofNat_of_lt' (by omega)] at hIndex
    rw [hIndex, hOther] at hNode
    exact Option.some.inj hNode
  · rintro rfl
    rcases hBranches k other hNode with ⟨_, -, hHangs⟩
    exact hHangs.1

/- The machine is the only component that chips hang below. -/
theorem Stage.parent_chip
    (hStage : t.Stage shape (tally chips cores threads))
    {k node : Nat}
    (hNode : (t.ofKind .chip)[k]? = some node) :
    t.parent? node = some 0 := by
  rcases hStage.branches _ _ _ rfl k node hNode with
    ⟨root, hRoot, hHangs⟩
  have hLess := (List.getElem?_eq_some_iff.mp hRoot).1
  rw [hStage.length, tally, Nat.lt_one_iff] at hLess
  rw [hLess, hStage.machine] at hRoot
  rw [hHangs.2, hRoot]

/- All components are searched from the root of a tree. -/
theorem Rooted.isSome_find?_iff
    (hRooted : t.Rooted)
    (id : UInt32)
    (kind : ComponentKind) :
    (t.find? 0 id kind).isSome = true ↔
      ∃ node, t.HasAt id kind node := by
  rw [hRooted.toForest.isSome_find?_iff hRooted.positive]
  simp only [hasKindAndId_iff]
  constructor
  · rintro ⟨node, -, hHas⟩
    exact ⟨node, hHas⟩
  · rintro ⟨node, hHas⟩
    exact ⟨node, hRooted.below hHas.lt_size, hHas⟩

variable {sockets cores threads : UInt32}

/- Every thread of a machine of alike sockets is found from its root. -/
theorem isSome_find?_uniform
    {thread : UInt32}
    (hLess :
      thread.toNat <
        sockets.toNat * cores.toNat * threads.toNat) :
    ((uniform sockets cores threads).find? 0 thread
      .thread).isSome = true := by
  have hStage := stage_uniform sockets cores threads
  have hLength := hStage.length .thread
  rw [tally] at hLength
  have hListed :=
    List.getElem?_eq_getElem (hLength.symm ▸ hLess)
  rcases hStage.branches _ _ _ rfl _ _ hListed with ⟨_, -, hHangs⟩
  rw [UInt32.ofNat_toNat] at hHangs
  exact (hStage.rooted.isSome_find?_iff _ _).mpr ⟨_, hHangs.1⟩

/- No other thread is found, as long as numbers fit 32 bits. -/
theorem isSome_find?_uniform_iff
    (hFew :
      sockets.toNat * cores.toNat * threads.toNat ≤ UInt32.size)
    (thread : UInt32) :
    ((uniform sockets cores threads).find? 0 thread
        .thread).isSome = true ↔
      thread.toNat <
        sockets.toNat * cores.toNat * threads.toNat := by
  refine ⟨?_, isSome_find?_uniform⟩
  intro hFound
  have hStage := stage_uniform sockets cores threads
  have hLength := hStage.length .thread
  rw [tally] at hLength
  rcases (hStage.rooted.isSome_find?_iff _ _).mp hFound with
    ⟨node, hHas⟩
  rcases (hStage.branches .core .thread _ rfl).exists_index hHas with
    ⟨k, hNode, rfl⟩
  have hLess := (List.getElem?_eq_some_iff.mp hNode).1
  rw [UInt32.toNat_ofNat_of_lt' (by omega)]
  omega

------------------------------------------------------------
-- Arrangement
------------------------------------------------------------

/-
  A machine of alike sockets in closed form. Threads are found by
  all numbers up to their count. A thread hangs below the core
  that its number belongs to, the core below its chip, and the
  chip below the machine, and numbers tell them apart.
-/
structure Arranged
    (t : Topology)
    (sockets cores threads : Nat) : Prop where
  size :
    t.size =
      1 + sockets + sockets * cores + sockets * cores * threads
  root : t.parent? 0 = none
  found :
    ∀ id : UInt32,
      (t.find? 0 id .thread).isSome = true ↔
        id.toNat < sockets * cores * threads
  chain :
    ∀ (id : UInt32) (node : Nat),
      t.find? 0 id .thread = some node →
        t.Sole .thread id node ∧
          ∃ core chip,
            t.parent? node = some core ∧
              t.Sole .core (.ofNat (id.toNat / threads)) core ∧
              t.parent? core = some chip ∧
              t.Sole .chip
                (.ofNat (id.toNat / (cores * threads))) chip ∧
              t.parent? chip = some 0

theorem arranged_uniform
    (sockets cores threads : UInt32)
    (hThreads :
      sockets.toNat * cores.toNat * threads.toNat < 2 ^ 32)
    (hCores : sockets.toNat * cores.toNat < 2 ^ 32) :
    (uniform sockets cores threads).Arranged
      sockets.toNat cores.toNat threads.toNat := by
  have hRange : UInt32.size = 2 ^ 32 := rfl
  have hStage := stage_uniform sockets cores threads
  have hChips := hStage.length .chip
  have hCoreCount := hStage.length .core
  have hThreadCount := hStage.length .thread
  have hSockets := sockets.toNat_lt
  simp only [tally] at hChips hCoreCount hThreadCount
  refine ⟨?_, hStage.rooted.parent?_zero,
    isSome_find?_uniform_iff (by omega), ?_⟩
  · rw [hStage.size]
    simp [ComponentKind.all, tally]
    omega
  · intro id node hFound
    have hHas :=
      ((hStage.rooted.toForest.search 0 id .thread).first
        node).mp hFound |>.1
    have hThreadBranches := hStage.branches .core .thread _ rfl
    have hCoreBranches := hStage.branches .chip .core _ rfl
    have hChipBranches := hStage.branches .node .chip _ rfl
    rcases hThreadBranches.exists_index hHas with
      ⟨k, hNode, rfl⟩
    have hNumber : (UInt32.ofNat k).toNat = k := by
      have hLess := (List.getElem?_eq_some_iff.mp hNode).1
      exact UInt32.toNat_ofNat_of_lt' (by omega)
    rcases hThreadBranches k node hNode with
      ⟨core, hCore, hNodeHangs⟩
    rcases hCoreBranches _ core hCore with
      ⟨chip, hChip, hCoreHangs⟩
    have hChipSole := hChipBranches.sole (by omega) hChip
    rw [Nat.div_div_eq_div_mul, Nat.mul_comm] at hChipSole
    rw [hNumber]
    exact
      ⟨hThreadBranches.sole (by omega) hNode, core, chip,
        hNodeHangs.2, hCoreBranches.sole (by omega) hCore,
        hCoreHangs.2, hChipSole, hStage.parent_chip hChip⟩

end CoreTally.Topology
