import CoreTally.Topology.Traversal
import Mathlib.Data.List.Nodup
import Mathlib.Data.List.Perm.Subperm
import Mathlib.Logic.Relation

/-
  Topologies are forests. Parents and children know each other,
  a child comes after its parent and is listed once. So the
  traversal with a stack meets every component below its root
  exactly once, in the order of the recursive definition.

  Key definitions include:
    * `Topology.Forest`
    * `Topology.Below`

  Key theorems include:
    * `Topology.Forest.addRoot`
    * `Topology.Forest.attach`
    * `Topology.Forest.mem_preorder_iff`
    * `Topology.Forest.nodup_preorder`
    * `Topology.Forest.subtree_eq`
    * `Topology.Forest.isSome_find?_iff`
-/

namespace CoreTally.Topology

------------------------------------------------------------
-- Components by Position
------------------------------------------------------------

theorem get?_push
    (t : Topology)
    (component : Component)
    (node : Nat) :
    (t.push component).get? node =
      if node = t.size then some component else t.get? node :=
  Array.getElem?_push

theorem get?_modify
    (t : Topology)
    (node : Nat)
    (change : Component → Component)
    (other : Nat) :
    (t.modify node change).get? other =
      if node = other then
        (t.get? other).map change
      else
        t.get? other :=
  Array.getElem?_modify

theorem lt_size_of_get?
    {t : Topology}
    {node : Nat}
    {component : Component}
    (hGet : t.get? node = some component) :
    node < t.size :=
  (Array.getElem?_eq_some_iff.mp hGet).1

theorem get?_of_size_le
    {t : Topology}
    {node : Nat}
    (hSize : t.size ≤ node) :
    t.get? node = none :=
  Array.getElem?_eq_none hSize

@[simp] theorem size_attach
    (t : Topology)
    (parent : Nat)
    (kind : ComponentKind)
    (id : UInt32)
    (name : String) :
    (t.attach parent kind id name).size = t.size + 1 := by
  simp [attach, modify, push, size]

variable {t : Topology}
variable {parent : Nat}
variable (kind : ComponentKind)
variable (id : UInt32)
variable (name : String)

/- Attaching adds one component and makes its parent know it. -/
theorem get?_attach
    (hParent : parent < t.size)
    (node : Nat) :
    (t.attach parent kind id name).get? node =
      if node = t.size then
        some { kind, id, name, parent := some parent }
      else if node = parent then
        (t.get? node).map fun component =>
          { component with
            children := component.children.push t.size }
      else
        t.get? node := by
  rw [attach, get?_modify, get?_push]
  by_cases hNew : node = t.size
  · have hOther : parent ≠ t.size := Nat.ne_of_lt hParent
    simp [hNew, hOther]
  · by_cases hOwn : parent = node
    · simp [hNew, hOwn]
    · simp [hNew, hOwn, Ne.symm hOwn]

theorem children_attach
    (hParent : parent < t.size)
    (node : Nat) :
    (t.attach parent kind id name).children node =
      if node = parent then
        t.children node ++ [t.size]
      else
        t.children node := by
  rw [children, get?_attach kind id name hParent]
  by_cases hNew : node = t.size
  · have hOther : node ≠ parent := by omega
    rw [if_pos hNew, if_neg hOther, children, hNew,
      get?_of_size_le (Nat.le_refl _)]
  · rw [if_neg hNew]
    by_cases hOwn : node = parent
    · subst hOwn
      rw [if_pos rfl, if_pos rfl, children]
      rcases hGet : t.get? node with _ | component
      · rw [get?, Array.getElem?_eq_none_iff] at hGet
        exact absurd hParent (by simpa [size] using hGet)
      · simp
    · rw [if_neg hOwn, if_neg hOwn, children]

theorem parent?_attach
    (hParent : parent < t.size)
    (node : Nat) :
    (t.attach parent kind id name).parent? node =
      if node = t.size then some parent else t.parent? node := by
  rw [parent?, get?_attach kind id name hParent]
  by_cases hNew : node = t.size
  · rw [if_pos hNew, if_pos hNew]
    rfl
  · rw [if_neg hNew, if_neg hNew, parent?]
    split
    · cases t.get? node <;> rfl
    · rfl

------------------------------------------------------------
-- Forests
------------------------------------------------------------

/-
  Parents and children know each other. A child comes after
  its parent and is listed there once.
-/
structure Forest (t : Topology) : Prop where
  parent_iff :
    ∀ parent child,
      t.parent? child = some parent ↔ child ∈ t.children parent
  ascending :
    ∀ parent child, child ∈ t.children parent → parent < child
  nodup : ∀ parent, (t.children parent).Nodup

/- A component is another one, or lies below it. -/
def Below (t : Topology) : Nat → Nat → Prop :=
  Relation.ReflTransGen fun parent child =>
    child ∈ t.children parent

theorem forest_empty : empty.Forest := by
  constructor
  · intro parent child
    simp [parent?, children, empty, get?]
  · intro parent child hChild
    simp [children, empty, get?] at hChild
  · intro parent
    simp [children, empty, get?]

/- Forests are told by their parents and children alone. -/
theorem Forest.congr
    (hForest : t.Forest)
    {other : Topology}
    (hParents : ∀ node, other.parent? node = t.parent? node)
    (hChildren : ∀ node, other.children node = t.children node) :
    other.Forest := by
  constructor
  · intro parent child
    rw [hParents, hChildren]
    exact hForest.parent_iff parent child
  · intro parent child hChild
    rw [hChildren] at hChild
    exact hForest.ascending parent child hChild
  · intro parent
    rw [hChildren]
    exact hForest.nodup parent

/- A new root knows nobody, and nobody knows it. -/
theorem Forest.addRoot
    (hForest : t.Forest) :
    (t.addRoot kind id name).Forest := by
  have hOld : t.get? t.size = none :=
    get?_of_size_le (Nat.le_refl _)
  apply hForest.congr
  · intro node
    rw [parent?, parent?, Topology.addRoot, get?_push]
    by_cases hNew : node = t.size
    · rw [if_pos hNew, hNew, hOld]
      rfl
    · rw [if_neg hNew]
  · intro node
    rw [children, children, Topology.addRoot, get?_push]
    by_cases hNew : node = t.size
    · rw [if_pos hNew, hNew, hOld]
    · rw [if_neg hNew]

/- A single component is a tree. -/
theorem forest_addRoot_empty :
    (empty.addRoot kind id name).Forest :=
  forest_empty.addRoot kind id name

/- Attributes do not show in the relations of components. -/
theorem Forest.setAttribute
    (hForest : t.Forest)
    (node : Nat)
    (value : AttributeValue) :
    (t.setAttribute node name value).Forest := by
  apply hForest.congr
  · intro other
    rw [parent?, parent?, Topology.setAttribute, get?_modify]
    by_cases hOwn : node = other
    · rw [if_pos hOwn]
      cases t.get? other <;> rfl
    · rw [if_neg hOwn]
  · intro other
    rw [children, children, Topology.setAttribute, get?_modify]
    by_cases hOwn : node = other
    · rw [if_pos hOwn]
      cases t.get? other <;> rfl
    · rw [if_neg hOwn]

theorem Forest.lt_size
    (hForest : t.Forest)
    {child : Nat}
    (hChild : child ∈ t.children parent) :
    child < t.size := by
  have hParent := (hForest.parent_iff parent child).mpr hChild
  rcases Option.bind_eq_some_iff.mp hParent with
    ⟨component, hGet, _⟩
  exact lt_size_of_get? hGet

/- A new component hangs below one that is there. -/
theorem Forest.attach
    (hForest : t.Forest)
    (hParent : parent < t.size) :
    (t.attach parent kind id name).Forest := by
  constructor
  · intro other child
    rw [parent?_attach kind id name hParent,
      children_attach kind id name hParent]
    by_cases hNew : child = t.size
    · subst hNew
      have hAbsent : t.size ∉ t.children other := fun hChild =>
        Nat.lt_irrefl _ (hForest.lt_size hChild)
      by_cases hOwn : other = parent
      · simp [hOwn]
      · simp [hOwn, hAbsent, Ne.symm hOwn]
    · rw [if_neg hNew, hForest.parent_iff]
      by_cases hOwn : other = parent <;> simp [hOwn, hNew]
  · intro other child hChild
    rw [children_attach kind id name hParent] at hChild
    split at hChild
    · rename_i hOwn
      rcases List.mem_append.mp hChild with hOld | hNew
      · exact hForest.ascending other child hOld
      · rw [List.mem_singleton.mp hNew, hOwn]
        exact hParent
    · exact hForest.ascending other child hChild
  · intro other
    rw [children_attach kind id name hParent]
    split
    · apply List.nodup_append.mpr
      refine ⟨hForest.nodup other, List.nodup_singleton _, ?_⟩
      intro child hChild new hNew hSame
      rw [List.mem_singleton.mp hNew] at hSame
      exact Nat.lt_irrefl _ (hSame ▸ hForest.lt_size hChild)
    · exact hForest.nodup other

------------------------------------------------------------
-- What Lies Below
------------------------------------------------------------

variable {root node : Nat}

theorem Below.le
    (hForest : t.Forest)
    (hBelow : t.Below root node) :
    root ≤ node := by
  induction hBelow with
  | refl => exact Nat.le_refl _
  | tail _ hChild ih =>
      exact Nat.le_trans ih
        (Nat.le_of_lt (hForest.ascending _ _ hChild))

theorem Below.lt_size
    (hForest : t.Forest)
    (hRoot : root < t.size)
    (hBelow : t.Below root node) :
    node < t.size := by
  cases hBelow with
  | refl => exact hRoot
  | tail _ hChild => exact hForest.lt_size hChild

/- Of two components above a third one, one is above the other. -/
theorem Below.total
    (hForest : t.Forest)
    {other : Nat}
    (hOne : t.Below root node)
    (hOther : t.Below other node) :
    t.Below root other ∨ t.Below other root := by
  have hUnique :
      Relator.RightUnique
        (Function.swap fun parent child =>
          child ∈ t.children parent) := by
    intro child one another hFirst hSecond
    have hParent := (hForest.parent_iff one child).mpr hFirst
    rw [(hForest.parent_iff another child).mpr hSecond] at hParent
    exact (Option.some.inj hParent).symm
  have hTotal :=
    Relation.ReflTransGen.total_of_right_unique hUnique
      (Relation.reflTransGen_swap.mpr hOne)
      (Relation.reflTransGen_swap.mpr hOther)
  rcases hTotal with hUp | hDown
  · exact .inr (Relation.reflTransGen_swap.mp hUp)
  · exact .inl (Relation.reflTransGen_swap.mp hDown)

------------------------------------------------------------
-- The Order of the Traversal
------------------------------------------------------------

namespace Forest

/- In a forest the order below a component is that of its children. -/
theorem preorder_eq
    (hForest : t.Forest)
    (hNode : node < t.size) :
    t.preorder node =
      node :: (t.children node).flatMap t.preorder := by
  rw [preorder, dif_pos hNode, List.flatMap_congr]
  intro child hChild
  rw [if_pos (hForest.ascending node child hChild)]

/- The order lists what lies below a component, and no more. -/
theorem mem_preorder_iff
    (hForest : t.Forest)
    {root : Nat}
    (hRoot : root < t.size)
    (node : Nat) :
    node ∈ t.preorder root ↔ t.Below root node := by
  -- Children are closer to the end of the topology.
  induction hLeft : t.size - root using Nat.strongRecOn
    generalizing root with
  | ind left ih =>
      subst hLeft
      have hBelowChild :
          ∀ child ∈ t.children root,
            (node ∈ t.preorder child ↔ t.Below child node) := by
        intro child hChild
        have hLess := hForest.ascending root child hChild
        exact ih (t.size - child) (by omega)
          (hForest.lt_size hChild) rfl
      rw [hForest.preorder_eq hRoot, List.mem_cons,
        List.mem_flatMap, Below,
        Relation.ReflTransGen.cases_head_iff]
      constructor
      · rintro (rfl | ⟨child, hChild, hMem⟩)
        · exact .inl rfl
        · exact .inr
            ⟨child, hChild, (hBelowChild child hChild).mp hMem⟩
      · rintro (rfl | ⟨child, hChild, hBelow⟩)
        · exact .inl rfl
        · exact .inr
            ⟨child, hChild, (hBelowChild child hChild).mpr hBelow⟩

/- No component lies below two children of the same one. -/
theorem disjoint_below
    (hForest : t.Forest)
    {root one other : Nat}
    (hOne : one ∈ t.children root)
    (hOther : other ∈ t.children root)
    (hBelow : t.Below one other) :
    one = other := by
  rcases Relation.ReflTransGen.cases_tail hBelow with
    rfl | ⟨last, hLast, hChild⟩
  · rfl
  · -- The other child has only one parent, which is the root.
    have hParent := (hForest.parent_iff root other).mpr hOther
    rw [(hForest.parent_iff last other).mpr hChild] at hParent
    have hUp := Below.le hForest hLast
    rw [Option.some.inj hParent] at hUp
    have hDown := hForest.ascending root one hOne
    omega

/- The order lists no component twice. -/
theorem nodup_preorder
    (hForest : t.Forest)
    {root : Nat}
    (hRoot : root < t.size) :
    (t.preorder root).Nodup := by
  induction hLeft : t.size - root using Nat.strongRecOn
    generalizing root with
  | ind left ih =>
      subst hLeft
      rw [hForest.preorder_eq hRoot, List.nodup_cons,
        List.nodup_flatMap]
      refine ⟨?_, ?_, ?_⟩
      · rw [List.mem_flatMap]
        rintro ⟨child, hChild, hMem⟩
        have hSize := hForest.lt_size hChild
        have hLess := hForest.ascending root child hChild
        have hBelow :=
          Below.le hForest
            ((hForest.mem_preorder_iff hSize root).mp hMem)
        omega
      · intro child hChild
        have hLess := hForest.ascending root child hChild
        exact ih (t.size - child) (by omega)
          (hForest.lt_size hChild) rfl
      · apply (hForest.nodup root).pairwise_of_forall_ne
        intro one hOne other hOther hDiffer node hLeft hRight
        have hFirst :=
          (hForest.mem_preorder_iff (hForest.lt_size hOne)
            node).mp hLeft
        have hSecond :=
          (hForest.mem_preorder_iff (hForest.lt_size hOther)
            node).mp hRight
        rcases Below.total hForest hFirst hSecond with hUp | hDown
        · exact hDiffer (hForest.disjoint_below hOne hOther hUp)
        · exact hDiffer
            (hForest.disjoint_below hOther hOne hDown).symm

/- There are no more components below one than there are at all. -/
theorem length_preorder_le
    (hForest : t.Forest)
    {root : Nat}
    (hRoot : root < t.size) :
    (t.preorder root).length ≤ t.size := by
  have hWithin : t.preorder root ⊆ List.range t.size := by
    intro node hNode
    rw [List.mem_range]
    exact Below.lt_size hForest hRoot
      ((hForest.mem_preorder_iff hRoot node).mp hNode)
  have hLength :=
    (List.subperm_of_subset (hForest.nodup_preorder hRoot)
      hWithin).length_le
  rwa [List.length_range] at hLength

------------------------------------------------------------
-- The Traversal with a Stack
------------------------------------------------------------

/- The stack is worked off in the order below its components. -/
theorem visit_eq
    (hForest : t.Forest)
    (steps : Nat)
    {stack : List Nat}
    (hStack : ∀ node ∈ stack, node < t.size)
    (visited : Array Nat) :
    (visit t steps stack visited).toList =
      visited.toList ++ (stack.flatMap t.preorder).take steps := by
  induction steps generalizing stack visited with
  | zero => simp [visit]
  | succ steps ih =>
      cases stack with
      | nil => simp [visit]
      | cons node rest =>
          rcases List.forall_mem_cons.mp hStack with
            ⟨hNode, hRest⟩
          have hNext :
              ∀ other ∈ t.children node ++ rest,
                other < t.size := by
            intro other hOther
            rcases List.mem_append.mp hOther with hChild | hOld
            · exact hForest.lt_size hChild
            · exact hRest other hOld
          rw [visit, ih hNext, List.flatMap_cons,
            hForest.preorder_eq hNode, List.flatMap_append]
          simp

/- The traversal lists the components in the recursive order. -/
theorem subtree_eq
    (hForest : t.Forest)
    (root : Nat) :
    t.subtree root = t.preorder root := by
  rw [subtree]
  by_cases hRoot : root < t.size
  · rw [if_pos hRoot, hForest.visit_eq t.size (by simpa using hRoot)]
    simpa using
      List.take_of_length_le (hForest.length_preorder_le hRoot)
  · rw [if_neg hRoot, preorder, dif_neg hRoot]

/- A search succeeds if there is something to find below. -/
theorem isSome_find?_iff
    (hForest : t.Forest)
    {root : Nat}
    (hRoot : root < t.size)
    (id : UInt32)
    (kind : ComponentKind) :
    (t.find? root id kind).isSome = true ↔
      ∃ node, t.Below root node ∧
        t.hasKindAndId kind id node = true := by
  rw [find?, hForest.subtree_eq, List.find?_isSome]
  simp only [hForest.mem_preorder_iff hRoot]

end Forest

end CoreTally.Topology
