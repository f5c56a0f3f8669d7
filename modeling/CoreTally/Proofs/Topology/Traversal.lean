import CoreTally.Proofs.Topology.Forest

/-
  Topologies as they are built, in any order of roots, children
  and attributes. They are forests, so the traversal from a root
  comes to an end by itself, in the order of the recursive
  definition, and searches find what is first in this order.

  Key definitions include:
    * `Topology.Built`
    * `Topology.Traverses`
    * `Topology.Walk`
    * `Topology.Search`

  Key theorems include:
    * `Topology.Built.forest`
    * `Topology.Forest.traverses_iff`
    * `Topology.built_topologies_are_walked`
-/

namespace CoreTally.Topology

------------------------------------------------------------
-- Building
------------------------------------------------------------

/-
  The topologies that are built from nothing. A child is added
  below any component that is already there.
-/
inductive Built : Topology → Prop
| empty :
    Built .empty
| addRoot
    {t : Topology}
    (hBuilt : Built t)
    (kind : ComponentKind)
    (id : UInt32)
    (name : String) :
    Built (t.addRoot kind id name)
| addChild
    {t grown : Topology}
    (hBuilt : Built t)
    (parent : Nat)
    (kind : ComponentKind)
    (id : UInt32)
    (name : String)
    (hChild : t.addChild? parent kind id name = some grown) :
    Built grown
| setAttribute
    {t : Topology}
    (hBuilt : Built t)
    (node : Nat)
    (name : String)
    (value : AttributeValue) :
    Built (t.setAttribute node name value)

variable {t : Topology}

theorem Built.forest
    (hBuilt : t.Built) :
    t.Forest := by
  induction hBuilt with
  | empty => exact forest_empty
  | addRoot _ kind id name ih => exact ih.addRoot kind id name
  | addChild _ parent kind id name hChild ih =>
      unfold addChild? at hChild
      split at hChild
      · rename_i hParent
        rw [← Option.some.inj hChild]
        exact ih.attach kind id name hParent
      · contradiction
  | setAttribute _ node name value ih =>
      exact ih.setAttribute name node value

------------------------------------------------------------
-- The Traversal without a Limit
------------------------------------------------------------

/-
  The traversal comes to an end from a stack, and meets some
  components on the way. Each of them is replaced on the stack
  by its children.
-/
inductive Traverses (t : Topology) : List Nat → List Nat → Prop
| done :
    Traverses t [] []
| next
    {node : Nat}
    {rest nodes : List Nat}
    (hRest : Traverses t (t.children node ++ rest) nodes) :
    Traverses t (node :: rest) (node :: nodes)

/- A traversal can not go two ways. -/
theorem Traverses.unique
    {stack nodes others : List Nat}
    (hNodes : t.Traverses stack nodes)
    (hOthers : t.Traverses stack others) :
    nodes = others := by
  induction hNodes generalizing others with
  | done =>
      cases hOthers
      rfl
  | next _ ih =>
      cases hOthers with
      | next hRest => rw [ih hRest]

namespace Forest

variable (hForest : t.Forest)
include hForest

/- Below every component of the stack there is a finite order. -/
theorem traverses_flatMap
    {stack : List Nat}
    (hStack : ∀ node ∈ stack, node < t.size) :
    t.Traverses stack (stack.flatMap t.preorder) := by
  -- Each step takes one component off the order that is left.
  induction hLength : (stack.flatMap t.preorder).length
    generalizing stack with
  | zero =>
      cases stack with
      | nil => exact .done
      | cons node rest =>
          have hNode := hStack node List.mem_cons_self
          simp [hForest.preorder_eq hNode] at hLength
  | succ length ih =>
      cases stack with
      | nil => exact .done
      | cons node rest =>
          rcases List.forall_mem_cons.mp hStack with
            ⟨hNode, hRest⟩
          have hNext :
              ∀ other ∈ t.children node ++ rest,
                other < t.size := by
            intro other hOther
            rcases List.mem_append.mp hOther with hChild | hOld
            · exact hForest.lt_size hChild
            · exact hRest other hOld
          have hOrder :
              (node :: rest).flatMap t.preorder =
                node ::
                  (t.children node ++ rest).flatMap
                    t.preorder := by
            simp [hForest.preorder_eq hNode]
          rw [hOrder] at hLength ⊢
          exact .next (ih hNext (Nat.succ.inj hLength))

/- The traversal from a root ends, in no other than the order. -/
theorem traverses_iff
    {root : Nat}
    (hRoot : root < t.size)
    (nodes : List Nat) :
    t.Traverses [root] nodes ↔ nodes = t.preorder root := by
  have hStack : ∀ node ∈ [root], node < t.size := by
    simpa using hRoot
  have hOrder : t.Traverses [root] (t.preorder root) := by
    simpa using hForest.traverses_flatMap hStack
  constructor
  · intro hNodes
    exact hNodes.unique hOrder
  · rintro rfl
    exact hOrder

end Forest

------------------------------------------------------------
-- Searches
------------------------------------------------------------

/- There is a component with a number and a kind at a position. -/
def HasAt
    (t : Topology)
    (id : UInt32)
    (kind : ComponentKind)
    (node : Nat) : Prop :=
  ∃ component,
    t.get? node = some component ∧
      component.id = id ∧ component.kind = kind

theorem hasKindAndId_iff
    (t : Topology)
    (kind : ComponentKind)
    (id : UInt32)
    (node : Nat) :
    t.hasKindAndId kind id node = true ↔
      t.HasAt id kind node := by
  simp [hasKindAndId, HasAt, Option.any_eq_true]

theorem isOfKind_iff
    (t : Topology)
    (kind : ComponentKind)
    (node : Nat) :
    t.isOfKind kind node = true ↔ ∃ id, t.HasAt id kind node := by
  simp [isOfKind, HasAt, Option.any_eq_true]

/-
  The traversal from a root ends by itself. It lists the root,
  and then what is listed from each of its children, and so all
  that is below the root, once.
-/
structure Walk
    (t : Topology)
    (root : Nat) : Prop where
  ends : ∀ nodes, t.Traverses [root] nodes ↔ nodes = t.subtree root
  order : t.subtree root = t.preorder root
  recursion :
    t.preorder root =
      root :: (t.children root).flatMap t.preorder
  members : ∀ node, node ∈ t.subtree root ↔ t.Below root node
  nodup : (t.subtree root).Nodup

/-
  What is found from a root downward is the first component of
  the traversal with the number and the kind, if there is one.
  All components of a kind are found in this order.
-/
structure Search
    (t : Topology)
    (root : Nat)
    (id : UInt32)
    (kind : ComponentKind) : Prop where
  first :
    ∀ node,
      t.find? root id kind = some node ↔
        t.HasAt id kind node ∧
          ∃ front back,
            t.subtree root = front ++ node :: back ∧
              ∀ other ∈ front, ¬ t.HasAt id kind other
  missing :
    t.find? root id kind = none ↔
      ∀ node, t.Below root node → ¬ t.HasAt id kind node
  inOrder : (t.findAll root kind).Sublist (t.subtree root)
  all :
    ∀ node,
      node ∈ t.findAll root kind ↔
        t.Below root node ∧ ∃ other, t.HasAt other kind node

theorem Forest.walk
    (hForest : t.Forest)
    {root : Nat}
    (hRoot : root < t.size) :
    t.Walk root where
  ends := by
    intro nodes
    rw [hForest.subtree_eq]
    exact hForest.traverses_iff hRoot nodes
  order := hForest.subtree_eq root
  recursion := hForest.preorder_eq hRoot
  members := by
    rw [hForest.subtree_eq]
    exact hForest.mem_preorder_iff hRoot
  nodup := by
    rw [hForest.subtree_eq]
    exact hForest.nodup_preorder hRoot

/- Only what is there can be below something. -/
theorem Forest.mem_subtree_iff
    (hForest : t.Forest)
    (root : Nat)
    {id : UInt32}
    {kind : ComponentKind}
    {node : Nat}
    (hHas : t.HasAt id kind node) :
    node ∈ t.subtree root ↔ t.Below root node := by
  by_cases hRoot : root < t.size
  · exact (hForest.walk hRoot).members node
  · rcases hHas with ⟨component, hGet, -⟩
    have hNode := lt_size_of_get? hGet
    rw [subtree, if_neg hRoot]
    constructor
    · intro hMem
      contradiction
    · intro hBelow
      have hLess := Below.le hForest hBelow
      omega

theorem Forest.search
    (hForest : t.Forest)
    (root : Nat)
    (id : UInt32)
    (kind : ComponentKind) :
    t.Search root id kind where
  first := by
    intro node
    rw [find?, List.find?_eq_some_iff_append, hasKindAndId_iff]
    simp only [Bool.not_eq_true', Bool.eq_false_iff, ne_eq,
      hasKindAndId_iff]
  missing := by
    rw [find?, List.find?_eq_none]
    simp only [hasKindAndId_iff]
    constructor
    · intro hNone node hBelow hHas
      exact hNone node
        ((hForest.mem_subtree_iff root hHas).mpr hBelow) hHas
    · intro hNone node hMem hHas
      exact hNone node
        ((hForest.mem_subtree_iff root hHas).mp hMem) hHas
  inOrder := List.filter_sublist
  all := by
    intro node
    rw [findAll, List.mem_filter, isOfKind_iff]
    constructor
    · rintro ⟨hMem, other, hHas⟩
      exact ⟨(hForest.mem_subtree_iff root hHas).mp hMem,
        other, hHas⟩
    · rintro ⟨hBelow, other, hHas⟩
      exact ⟨(hForest.mem_subtree_iff root hHas).mpr hBelow,
        other, hHas⟩

/-
  However a topology is built, it is a forest: its parents and
  children know each other, and a child comes after its parent
  and is listed there once. From a component that exists, the
  traversal ends with all that is below it, in the recursive
  order, and from any other one it ends at once. Searches find
  what comes first.
-/
theorem built_topologies_are_walked
    (hBuilt : t.Built) :
    t.Forest ∧
      (∀ root, root < t.size → t.Walk root) ∧
      (∀ root, t.size ≤ root → t.subtree root = []) ∧
      ∀ root id kind, t.Search root id kind := by
  have hForest := hBuilt.forest
  refine ⟨hForest, fun root => hForest.walk, ?_,
    hForest.search⟩
  intro root hRoot
  rw [subtree, if_neg (Nat.not_lt.mpr hRoot)]

/-
  Two trees, whose components are added in turn. A late child of
  an early component comes before its younger siblings.
-/
theorem built_topologies_are_walked_interleaved :
    ∃ t : Topology,
      t.Built ∧ t.size = 7 ∧
        t.Traverses [0] [0, 1, 5, 2, 4] ∧
        t.find? 0 7 .thread = some 5 ∧
        t.find? 3 7 .thread = some 6 ∧
        t.Forest := by
  let planted :=
    (((empty.addRoot .node 0 "machine").attach 0 .chip 0 "a")
      |>.attach 0 .chip 1 "b"
      |>.addRoot .node 1 "other")
  let t :=
    ((planted.attach 2 .thread 7 "first").attach 1 .thread 7 "late"
      |>.attach 3 .thread 7 "apart"
      |>.setAttribute 5 "online" (.bool true))
  have hPlanted : planted.Built :=
    (((Built.empty.addRoot .node 0 "machine").addChild
      0 .chip 0 "a" rfl).addChild
        0 .chip 1 "b" rfl).addRoot .node 1 "other"
  have hBuilt : t.Built :=
    (((hPlanted.addChild 2 .thread 7 "first" rfl).addChild
      1 .thread 7 "late" rfl).addChild
        3 .thread 7 "apart" rfl).setAttribute 5 "online" _
  rcases built_topologies_are_walked hBuilt with
    ⟨hForest, hWalk, -, hSearch⟩
  have hSize : t.size = 7 := by decide +kernel
  have hOrder : t.subtree 0 = [0, 1, 5, 2, 4] := by
    decide +kernel
  have hApart : t.find? 3 7 .thread = some 6 := by
    decide +kernel
  have hLate : t.hasKindAndId .thread 7 5 = true := by
    decide +kernel
  have hFront :
      ∀ other ∈ [0, 1], t.hasKindAndId .thread 7 other = false := by
    decide +kernel
  refine ⟨t, hBuilt, hSize, ?_, ?_, hApart, hForest⟩
  · apply ((hWalk 0 (by omega)).ends _).mpr
    exact hOrder.symm
  · apply ((hSearch 0 7 .thread).first 5).mpr
    refine ⟨(hasKindAndId_iff _ _ _ _).mp hLate, [0, 1], [2, 4],
      hOrder, ?_⟩
    intro other hOther hHas
    rw [← hasKindAndId_iff, hFront other hOther] at hHas
    exact Bool.false_ne_true hHas

end CoreTally.Topology
