import CoreTally.Proofs.Topology.Traversal

/-
  Topologies that grow by one component at a time. What was there
  keeps its kind, its number, its parent and its attributes, and
  the components of a kind are listed by position.

  Key definitions include:
    * `Topology.Rooted`
    * `Topology.ofKind`
    * `Topology.Hangs`
    * `Topology.Adds`

  Key theorems include:
    * `Topology.Rooted.below`
    * `Topology.mem_ofKind_iff`
    * `Topology.pairwise_ofKind`
    * `Topology.adds_attach`
    * `Topology.Adds.setAttribute`
    * `Topology.Adds.hangs_iff`
    * `Topology.Adds.ofKind_of_ne`
    * `Topology.Adds.ofKind_same`
-/

namespace CoreTally.Topology

------------------------------------------------------------
-- Trees
------------------------------------------------------------

/- A forest with a single tree, whose root is component 0. -/
structure Rooted (t : Topology) : Prop extends Forest t where
  positive : 0 < t.size
  child :
    ∀ node, 0 < node → node < t.size →
      ∃ parent, t.parent? node = some parent

variable {t : Topology}

section Trees

variable {parent : Nat}
variable (kind : ComponentKind)
variable (id : UInt32)
variable (name : String)

theorem rooted_addRoot_empty :
    (empty.addRoot kind id name).Rooted := by
  refine ⟨forest_addRoot_empty kind id name, Nat.one_pos, ?_⟩
  intro node hPositive hSize
  change node < 1 at hSize
  omega

theorem Rooted.attach
    (hRooted : t.Rooted)
    (hParent : parent < t.size) :
    (t.attach parent kind id name).Rooted := by
  refine ⟨hRooted.toForest.attach kind id name hParent, ?_, ?_⟩
  · rw [size_attach]
    exact Nat.succ_pos _
  · intro node hPositive hSize
    rw [size_attach] at hSize
    rw [parent?_attach kind id name hParent]
    by_cases hNew : node = t.size
    · exact ⟨parent, if_pos hNew⟩
    · rw [if_neg hNew]
      exact hRooted.child node hPositive (by omega)

/- Every component of a tree lies below its root. -/
theorem Rooted.below
    (hRooted : t.Rooted)
    {node : Nat}
    (hNode : node < t.size) :
    t.Below 0 node := by
  induction node using Nat.strongRecOn with
  | ind node ih =>
      rcases Nat.eq_zero_or_pos node with rfl | hPositive
      · exact .refl
      · rcases hRooted.child node hPositive hNode with
          ⟨parent, hParent⟩
        have hChild := (hRooted.parent_iff parent node).mp hParent
        have hLess := hRooted.ascending parent node hChild
        exact (ih parent hLess (Nat.lt_trans hLess hNode)).tail
          hChild

end Trees

------------------------------------------------------------
-- Components of a Kind
------------------------------------------------------------

/- The positions of the components of a kind, ascending. -/
def ofKind (t : Topology) (kind : ComponentKind) : List Nat :=
  (List.range t.size).filter (t.isOfKind kind)

theorem HasAt.lt_size
    {id : UInt32}
    {kind : ComponentKind}
    {node : Nat}
    (hHas : t.HasAt id kind node) :
    node < t.size := by
  rcases hHas with ⟨component, hGet, -⟩
  exact lt_size_of_get? hGet

/- A component has one number and one kind. -/
theorem HasAt.unique
    {id otherId : UInt32}
    {kind otherKind : ComponentKind}
    {node : Nat}
    (hHas : t.HasAt id kind node)
    (hOther : t.HasAt otherId otherKind node) :
    id = otherId ∧ kind = otherKind := by
  rcases hHas with ⟨component, hGet, rfl, rfl⟩
  rcases hOther with ⟨other, hAgain, rfl, rfl⟩
  rw [hGet] at hAgain
  rw [Option.some.inj hAgain]
  exact ⟨rfl, rfl⟩

theorem mem_ofKind_iff
    (kind : ComponentKind)
    (node : Nat) :
    node ∈ t.ofKind kind ↔ ∃ id, t.HasAt id kind node := by
  rw [ofKind, List.mem_filter, List.mem_range, isOfKind_iff]
  constructor
  · exact And.right
  · rintro ⟨id, hHas⟩
    exact ⟨hHas.lt_size, id, hHas⟩

theorem pairwise_ofKind
    (t : Topology)
    (kind : ComponentKind) :
    (t.ofKind kind).Pairwise (· < ·) :=
  List.pairwise_lt_range.filter _

theorem nodup_ofKind
    (t : Topology)
    (kind : ComponentKind) :
    (t.ofKind kind).Nodup :=
  (t.pairwise_ofKind kind).imp Nat.ne_of_lt

/- A component with a kind and a number hangs below another one. -/
def Hangs
    (t : Topology)
    (node : Nat)
    (kind : ComponentKind)
    (id : UInt32)
    (parent : Nat) : Prop :=
  t.HasAt id kind node ∧ t.parent? node = some parent

------------------------------------------------------------
-- Attributes
------------------------------------------------------------

section Attributes

variable (node : Nat)
variable (name : String)
variable (value : AttributeValue)

@[simp] theorem size_setAttribute :
    (t.setAttribute node name value).size = t.size := by
  simp [setAttribute, modify, size]

@[simp] theorem hasAt_setAttribute
    (id : UInt32)
    (kind : ComponentKind)
    (other : Nat) :
    (t.setAttribute node name value).HasAt id kind other ↔
      t.HasAt id kind other := by
  rw [HasAt, HasAt, setAttribute, get?_modify]
  split
  · cases t.get? other <;> simp
  · rfl

@[simp] theorem parent?_setAttribute
    (other : Nat) :
    (t.setAttribute node name value).parent? other =
      t.parent? other := by
  rw [parent?, parent?, setAttribute, get?_modify]
  split
  · cases t.get? other <;> rfl
  · rfl

theorem Rooted.setAttribute
    (hRooted : t.Rooted) :
    (t.setAttribute node name value).Rooted := by
  refine ⟨hRooted.toForest.setAttribute name node value, ?_, ?_⟩
  · rw [size_setAttribute]
    exact hRooted.positive
  · intro other hPositive hSize
    rw [size_setAttribute] at hSize
    rw [parent?_setAttribute]
    exact hRooted.child other hPositive hSize

/- The root of a tree hangs below nothing. -/
theorem Rooted.parent?_zero
    (hRooted : t.Rooted) :
    t.parent? 0 = none := by
  apply Option.eq_none_iff_forall_ne_some.mpr
  intro parent hParent
  exact Nat.not_lt_zero parent
    (hRooted.ascending parent 0
      ((hRooted.parent_iff parent 0).mp hParent))

/- Setting an attribute changes no other one. -/
theorem attribute?_setAttribute
    (other : Nat)
    (key : String) :
    (t.setAttribute node name value).attribute? other key =
      if node = other ∧ node < t.size ∧ key = name then
        some value
      else
        t.attribute? other key := by
  rw [attribute?, attribute?, setAttribute, get?_modify]
  by_cases hNode : node = other
  · subst hNode
    rw [if_pos rfl]
    rcases hGet : t.get? node with _ | component
    · have hSize : ¬ node < t.size := by
        rw [get?, Array.getElem?_eq_none_iff] at hGet
        exact Nat.not_lt.mpr hGet
      simp [hSize]
    · have hSize := lt_size_of_get? hGet
      simp [OrderedMap.find?_insert, hSize]
  · simp [hNode]

end Attributes

------------------------------------------------------------
-- One More Component
------------------------------------------------------------

variable {larger : Topology}
variable {parent : Nat}
variable {kind : ComponentKind}
variable {id : UInt32}

/-
  A larger topology has one more component, at the end and below
  one that was there. All others have stayed as they were, but
  for the children of the parent.
-/
structure Adds
    (t larger : Topology)
    (parent : Nat)
    (kind : ComponentKind)
    (id : UInt32) : Prop where
  inside : parent < t.size
  rooted : t.Rooted → larger.Rooted
  size : larger.size = t.size + 1
  hasAt :
    ∀ otherId otherKind node,
      larger.HasAt otherId otherKind node ↔
        t.HasAt otherId otherKind node ∨
          node = t.size ∧ otherId = id ∧ otherKind = kind
  parent? :
    ∀ node,
      larger.parent? node =
        if node = t.size then some parent else t.parent? node
  attribute? :
    ∀ node, node < t.size →
      ∀ key, larger.attribute? node key = t.attribute? node key

/- A new component has no attributes. -/
theorem attribute?_attach
    (hParent : parent < t.size)
    (kind : ComponentKind)
    (id : UInt32)
    (name key : String) :
    (t.attach parent kind id name).attribute? t.size key = none := by
  rw [attribute?, get?_attach kind id name hParent, if_pos rfl]
  rfl

theorem adds_attach
    (hParent : parent < t.size)
    (kind : ComponentKind)
    (id : UInt32)
    (name : String) :
    t.Adds (t.attach parent kind id name) parent kind id where
  inside := hParent
  rooted := fun hRooted => hRooted.attach kind id name hParent
  size := size_attach ..
  hasAt := by
    intro otherId otherKind node
    rw [HasAt, HasAt, get?_attach kind id name hParent]
    by_cases hNew : node = t.size
    · rw [if_pos hNew, hNew, get?_of_size_le (Nat.le_refl _)]
      simp [eq_comm]
    · rw [if_neg hNew]
      split
      · cases t.get? node <;> simp [hNew]
      · simp [hNew]
  parent? := parent?_attach kind id name hParent
  attribute? := by
    intro node hNode key
    rw [Topology.attribute?, Topology.attribute?,
      get?_attach kind id name hParent,
      if_neg (Nat.ne_of_lt hNode)]
    split
    · cases t.get? node <;> rfl
    · rfl

namespace Adds

variable (hAdds : t.Adds larger parent kind id)
include hAdds

/- The new component may be given attributes. -/
theorem setAttribute
    (name : String)
    (value : AttributeValue) :
    t.Adds (larger.setAttribute t.size name value)
      parent kind id where
  inside := hAdds.inside
  rooted := fun hRooted =>
    (hAdds.rooted hRooted).setAttribute t.size name value
  size := by rw [size_setAttribute, hAdds.size]
  hasAt := by
    intro otherId otherKind node
    rw [hasAt_setAttribute, hAdds.hasAt]
  parent? := by
    intro node
    rw [parent?_setAttribute, hAdds.parent?]
  attribute? := by
    intro node hNode key
    rw [attribute?_setAttribute, if_neg (by omega),
      hAdds.attribute? node hNode]

theorem hangs_iff
    (node : Nat)
    (otherKind : ComponentKind)
    (otherId : UInt32)
    (otherParent : Nat) :
    larger.Hangs node otherKind otherId otherParent ↔
      t.Hangs node otherKind otherId otherParent ∨
        node = t.size ∧ otherKind = kind ∧ otherId = id ∧
          otherParent = parent := by
  rw [Hangs, Hangs, hAdds.hasAt, hAdds.parent?]
  by_cases hNew : node = t.size
  · have hOld : ¬ t.HasAt otherId otherKind node := fun hHas =>
      Nat.ne_of_lt hHas.lt_size hNew
    rw [if_pos hNew, Option.some.injEq, eq_comm]
    tauto
  · simp [hNew]

/- What hung below another component still does. -/
theorem kept
    {node : Nat}
    {otherKind : ComponentKind}
    {otherId : UInt32}
    {otherParent : Nat}
    (hHangs : t.Hangs node otherKind otherId otherParent) :
    larger.Hangs node otherKind otherId otherParent :=
  (hAdds.hangs_iff _ _ _ _).mpr (.inl hHangs)

/- The new component hangs below its parent. -/
theorem new :
    larger.Hangs t.size kind id parent :=
  (hAdds.hangs_iff _ _ _ _).mpr (.inr ⟨rfl, rfl, rfl, rfl⟩)

/- Old components have kept their kinds. -/
theorem filter_range
    (otherKind : ComponentKind) :
    (List.range t.size).filter (larger.isOfKind otherKind) =
      t.ofKind otherKind := by
  apply List.filter_congr
  intro node hNode
  have hOld := Nat.ne_of_lt (List.mem_range.mp hNode)
  rw [Bool.eq_iff_iff, isOfKind_iff, isOfKind_iff]
  simp [hAdds.hasAt, hOld]

/- Nothing has changed for the kinds of other components. -/
theorem ofKind_of_ne
    {otherKind : ComponentKind}
    (hOther : otherKind ≠ kind) :
    larger.ofKind otherKind = t.ofKind otherKind := by
  have hNew : larger.isOfKind otherKind t.size = false := by
    rw [Bool.eq_false_iff, Ne, isOfKind_iff]
    rintro ⟨otherId, hHas⟩
    exact hOther (hHas.unique hAdds.new.1).2
  rw [ofKind, hAdds.size, List.range_succ, List.filter_append,
    hAdds.filter_range]
  simp [hNew]

/- The new component is the last one of its kind. -/
theorem ofKind_same :
    larger.ofKind kind = t.ofKind kind ++ [t.size] := by
  have hNew : larger.isOfKind kind t.size = true :=
    (isOfKind_iff _ _ _).mpr ⟨id, hAdds.new.1⟩
  rw [ofKind, hAdds.size, List.range_succ, List.filter_append,
    hAdds.filter_range]
  simp [hNew]

end Adds

end CoreTally.Topology
