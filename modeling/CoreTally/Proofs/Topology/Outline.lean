import CoreTally.Proofs.Topology.Traversal
import CoreTally.Topology.Listing

/-
  Topologies as they are printed. A line is indented by twice the
  number of parents up to the root of the listing, and what is
  printed between a component and its parent is indented as far
  as the component at least. So the indentation alone tells the
  parent of every component.

  Key definitions include:
    * `Topology.Climbs`
    * `Topology.indentOf`
    * `Topology.Outlined`

  Key theorems include:
    * `Topology.Forest.climbs_iff`
    * `Topology.Forest.climbs_of_below`
    * `Topology.indentOf_line`
    * `Topology.Forest.nested_preorder`
    * `Topology.built_topologies_are_outlined`
-/

namespace CoreTally.Topology

variable {t : Topology}
variable {root parent node top steps : Nat}

------------------------------------------------------------
-- Depths
------------------------------------------------------------

/-
  From a component some steps lead over parents up to another
  one.
-/
inductive Climbs (t : Topology) : Nat → Nat → Nat → Prop
| stay
    (node : Nat) :
    Climbs t node 0 node
| step
    {node parent steps top : Nat}
    (hParent : t.parent? node = some parent)
    (hRest : Climbs t parent steps top) :
    Climbs t node (steps + 1) top

theorem depth_of_root
    (hRoot : t.parent? node = none) :
    t.depth node = 0 := by
  rw [depth, hRoot]

namespace Forest

variable (hForest : t.Forest)
include hForest

theorem parent_lt
    (hParent : t.parent? node = some parent) :
    parent < node :=
  hForest.ascending parent node
    ((hForest.parent_iff parent node).mp hParent)

theorem depth_of_parent
    (hParent : t.parent? node = some parent) :
    t.depth node = t.depth parent + 1 := by
  rw [depth, hParent]
  exact if_pos (hForest.parent_lt hParent)

/- Every step up is one less of the depth. -/
theorem depth_of_climbs
    (hClimbs : t.Climbs node steps top) :
    t.depth node = t.depth top + steps := by
  induction hClimbs with
  | stay node => rfl
  | step hParent _ ih =>
      rw [hForest.depth_of_parent hParent, ih]
      rfl

/- The way up ends, since parents have smaller positions. -/
theorem exists_climbs
    (node : Nat) :
    ∃ top,
      t.Climbs node (t.depth node) top ∧ t.parent? top = none := by
  induction node using Nat.strongRecOn with
  | ind node ih =>
      rcases hParent : t.parent? node with _ | parent
      · rw [depth_of_root hParent]
        exact ⟨node, .stay node, hParent⟩
      · rcases ih parent (hForest.parent_lt hParent) with
          ⟨top, hClimbs, hTop⟩
        rw [hForest.depth_of_parent hParent]
        exact ⟨top, .step hParent hClimbs, hTop⟩

/- The depth is the number of steps to a root, and no other one. -/
theorem climbs_iff
    (node steps : Nat) :
    (∃ top, t.Climbs node steps top ∧ t.parent? top = none) ↔
      steps = t.depth node := by
  constructor
  · rintro ⟨top, hClimbs, hTop⟩
    rw [hForest.depth_of_climbs hClimbs, depth_of_root hTop,
      Nat.zero_add]
  · rintro rfl
    exact hForest.exists_climbs node

/- From below a component some steps lead up to it. -/
theorem climbs_of_below
    (hBelow : t.Below root node) :
    ∃ steps, t.Climbs node steps root := by
  induction hBelow with
  | refl => exact ⟨0, .stay root⟩
  | tail _ hChild ih =>
      rcases ih with ⟨steps, hClimbs⟩
      exact ⟨steps + 1,
        .step ((hForest.parent_iff _ _).mpr hChild) hClimbs⟩

end Forest

------------------------------------------------------------
-- Indentation
------------------------------------------------------------

/- The number of blanks at the start of a line. -/
def indentOf (line : String) : Nat :=
  (line.toList.takeWhile (· == ' ')).length

/- The text of a component starts with the name of its kind. -/
theorem componentText_start
    (component : Component) :
    ∃ first rest,
      (componentText component).toList = first :: rest ∧
        first ≠ ' ' := by
  have hLabel :
      ∃ first rest,
        component.kind.label.toList = first :: rest ∧
          first ≠ ' ' := by
    cases component.kind <;> exact ⟨_, _, rfl, by decide⟩
  rcases hLabel with ⟨first, rest, hLabel, hFirst⟩
  refine ⟨first, (componentText component).toList.tail, ?_, hFirst⟩
  simp [componentText, toString, hLabel]

/- The blanks of a line are those of its indentation. -/
theorem indentOf_line
    (root : Nat)
    (hNode : node < t.size) :
    indentOf (t.line root node) = t.indentation root node := by
  rcases hGet : t.get? node with _ | component
  · rw [get?, Array.getElem?_eq_none_iff] at hGet
    exact absurd hNode (Nat.not_lt.mpr hGet)
  · rcases componentText_start component with
      ⟨first, rest, hText, hFirst⟩
    rw [indentOf, line, hGet]
    simp only [String.toList_append, String.toList_ofList, hText,
      List.append_assoc, List.cons_append]
    rw [List.takeWhile_append_of_pos (by simp),
      List.takeWhile_cons_of_neg (by simpa using hFirst),
      List.append_nil, List.length_replicate]

------------------------------------------------------------
-- Nesting
------------------------------------------------------------

/- An item of joined lists comes from one of the lists. -/
theorem exists_of_flatMap_eq
    {α β : Type}
    {f : α → List β}
    {items : List α}
    {front back : List β}
    {one : β}
    (hSplit : items.flatMap f = front ++ one :: back) :
    ∃ first item last inner rest,
      items = first ++ item :: last ∧
        f item = inner ++ one :: rest ∧
        front = first.flatMap f ++ inner := by
  induction items generalizing front with
  | nil => simp at hSplit
  | cons head items ih =>
      rw [List.flatMap_cons, List.append_eq_append_iff] at hSplit
      rcases hSplit with
        ⟨inner, rfl, hRest⟩ | ⟨inner, hHead, hRest⟩
      · rcases ih hRest with
          ⟨first, item, last, before, rest, rfl, hItem, rfl⟩
        exact ⟨head :: first, item, last, before, rest, rfl,
          hItem, by simp⟩
      · cases inner with
        | nil =>
            have hItems : items.flatMap f = [] ++ one :: back :=
              hRest.symm
            rcases ih hItems with
              ⟨first, item, last, before, rest, rfl, hItem, hNil⟩
            refine ⟨head :: first, item, last, before, rest, rfl,
              hItem, ?_⟩
            rw [List.flatMap_cons, List.append_assoc, ← hNil, hHead,
              List.append_nil, List.append_nil]
        | cons other inner =>
            rw [List.cons_append, List.cons_eq_cons] at hRest
            rw [← hRest.1] at hHead
            exact ⟨[], head, items, front, inner, rfl, hHead, rfl⟩

namespace Forest

variable (hForest : t.Forest)
include hForest

/- What lies below a component is at least as deep. -/
theorem depth_le_of_below
    (hBelow : t.Below root node) :
    t.depth root ≤ t.depth node := by
  rcases hForest.climbs_of_below hBelow with ⟨steps, hClimbs⟩
  rw [hForest.depth_of_climbs hClimbs]
  exact Nat.le_add_right _ _

/-
  In the order below a root, what comes behind a front comes
  behind its parent in there. Everything in between is as deep as
  itself at least: its older siblings with all that is below them.
-/
theorem nested_preorder
    (hRoot : root < t.size)
    {front back : List Nat}
    (hOrder : t.preorder root = front ++ node :: back)
    (hFront : front ≠ []) :
    ∃ before parent between,
      front = before ++ parent :: between ∧
        t.parent? node = some parent ∧
        ∀ other ∈ between, t.depth node ≤ t.depth other := by
  -- Children are closer to the end of the topology.
  induction hLeft : t.size - root using Nat.strongRecOn
    generalizing root front back with
  | ind left ih =>
      subst hLeft
      rcases List.exists_cons_of_ne_nil hFront with
        ⟨head, behind, rfl⟩
      rw [hForest.preorder_eq hRoot, List.cons_append,
        List.cons_eq_cons] at hOrder
      rcases hOrder with ⟨rfl, hOrder⟩
      rcases exists_of_flatMap_eq hOrder with
        ⟨older, child, younger, inner, rest, hChildren, hInner,
          rfl⟩
      have hChild : child ∈ t.children root := by
        simp [hChildren]
      have hSize := hForest.lt_size hChild
      have hLess := hForest.ascending root child hChild
      cases inner with
      | nil =>
          rw [hForest.preorder_eq hSize, List.nil_append,
            List.cons_eq_cons] at hInner
          rcases hInner with ⟨rfl, -⟩
          have hParent := (hForest.parent_iff root child).mpr hChild
          refine ⟨[], root, older.flatMap t.preorder, by simp,
            hParent, ?_⟩
          intro other hOther
          rcases List.mem_flatMap.mp hOther with
            ⟨sibling, hSibling, hBelow⟩
          have hAlso : sibling ∈ t.children root := by
            simp [hChildren, hSibling]
          rw [hForest.mem_preorder_iff (hForest.lt_size hAlso)]
            at hBelow
          have hDeep := hForest.depth_le_of_below hBelow
          rwa [hForest.depth_of_parent
              ((hForest.parent_iff root sibling).mpr hAlso),
            ← hForest.depth_of_parent hParent] at hDeep
      | cons first inner =>
          rcases ih (t.size - child) (by omega) hSize hInner
              (List.cons_ne_nil _ _) rfl with
            ⟨before, parent, between, hSame, hParent, hDeep⟩
          rw [hSame]
          exact ⟨root :: (older.flatMap t.preorder ++ before),
            parent, between, by simp, hParent, hDeep⟩

end Forest

------------------------------------------------------------
-- Outlines
------------------------------------------------------------

/-
  The listing of a root as it is printed, line by line. Depths
  are no smaller than that of the root. A line is indented twice
  per step up to the root, and the parent of any other component
  is in the nearest line above that is indented less.
-/
structure Outlined (t : Topology) (root : Nat) : Prop where
  lines :
    t.listing root = String.join ((t.subtree root).map (t.line root))
  deeper : ∀ node ∈ t.subtree root, t.depth root ≤ t.depth node
  indented :
    ∀ node ∈ t.subtree root,
      ∃ steps,
        t.Climbs node steps root ∧
          indentOf (t.line root node) = 2 * steps
  nested :
    ∀ front node back,
      t.subtree root = front ++ node :: back →
        node ≠ root →
          ∃ before parent between,
            front = before ++ parent :: between ∧
              t.parent? node = some parent ∧
              indentOf (t.line root parent) + 2 =
                indentOf (t.line root node) ∧
              ∀ other ∈ between,
                indentOf (t.line root node) ≤
                  indentOf (t.line root other)

theorem Forest.outlined
    (hForest : t.Forest)
    (hRoot : root < t.size) :
    t.Outlined root := by
  have hWalk := hForest.walk hRoot
  have hSize :
      ∀ node ∈ t.subtree root, node < t.size := by
    intro node hNode
    exact Below.lt_size hForest hRoot ((hWalk.members node).mp hNode)
  have hDeeper :
      ∀ node ∈ t.subtree root, t.depth root ≤ t.depth node := by
    intro node hNode
    exact hForest.depth_le_of_below ((hWalk.members node).mp hNode)
  refine ⟨rfl, hDeeper, ?_, ?_⟩
  · intro node hNode
    rcases hForest.climbs_of_below ((hWalk.members node).mp hNode)
      with ⟨steps, hClimbs⟩
    have hDepth := hForest.depth_of_climbs hClimbs
    refine ⟨steps, hClimbs, ?_⟩
    rw [indentOf_line root (hSize node hNode), indentation]
    omega
  · intro front node back hOrder hNode
    have hAgain := hOrder
    rw [hWalk.order] at hAgain
    have hFront : front ≠ [] := by
      rintro rfl
      rw [hForest.preorder_eq hRoot, List.nil_append,
        List.cons_eq_cons] at hAgain
      exact hNode hAgain.1.symm
    rcases hForest.nested_preorder hRoot hAgain hFront with
      ⟨before, parent, between, rfl, hParent, hDeep⟩
    have hListed :
        ∀ other ∈ before ++ parent :: between ++ node :: back,
          t.depth root ≤ t.depth other ∧ other < t.size := by
      intro other hOther
      rw [← hOrder] at hOther
      exact ⟨hDeeper other hOther, hSize other hOther⟩
    have hOwn := hListed node (by simp)
    have hAbove := hListed parent (by simp)
    have hDepth := hForest.depth_of_parent hParent
    refine ⟨before, parent, between, rfl, hParent, ?_, ?_⟩
    · rw [indentOf_line root hOwn.2, indentOf_line root hAbove.2,
        indentation, indentation]
      omega
    · intro other hOther
      have hBetween := hListed other (by simp [hOther])
      have hLower := hDeep other hOther
      rw [indentOf_line root hOwn.2, indentOf_line root hBetween.2,
        indentation, indentation]
      omega

/-
  However a topology is built, the way up from a component ends
  after as many steps as its depth, the listing of a root shows
  the tree below it by its indentation, and nothing is printed
  for a root that does not exist.
-/
theorem built_topologies_are_outlined
    (hBuilt : t.Built) :
    (∀ node steps,
      (∃ top, t.Climbs node steps top ∧ t.parent? top = none) ↔
        steps = t.depth node) ∧
      (∀ root, root < t.size → t.Outlined root) ∧
      ∀ root, t.size ≤ root → t.listing root = "" := by
  have hForest := hBuilt.forest
  refine ⟨hForest.climbs_iff, fun _ => hForest.outlined, ?_⟩
  intro root hRoot
  rw [listing, subtree, if_neg (Nat.not_lt.mpr hRoot)]
  rfl

/-
  Two trees, whose components are added in turn. In the listing of
  a chip, which is not a root itself, the late thread is printed
  below the core that was added first.
-/
theorem built_topologies_are_outlined_interleaved :
    ∃ t : Topology,
      t.Built ∧
        t.listing 1 =
          "chip 0 (a)\n  core 0 (old)\n    thread 1 (late)\n" ++
            "  core 1 (young)\n    thread 0 (early)\n" ∧
        t.listing 7 = "" ∧
        t.depth 6 = 3 ∧
        ∃ parent,
          t.parent? 6 = some parent ∧
            indentOf (t.line 1 parent) + 2 =
              indentOf (t.line 1 6) := by
  let planted :=
    (((empty.addRoot .node 0 "machine").attach 0 .chip 0 "a")
      |>.addRoot .node 1 "other"
      |>.attach 1 .core 0 "old")
  let t :=
    ((planted.attach 1 .core 1 "young").attach 4 .thread 0 "early"
      |>.attach 3 .thread 1 "late")
  have hPlanted : planted.Built :=
    ((((Built.empty.addRoot .node 0 "machine").addChild
      0 .chip 0 "a" rfl).addRoot .node 1 "other").addChild
        1 .core 0 "old" rfl)
  have hBuilt : t.Built :=
    ((hPlanted.addChild 1 .core 1 "young" rfl).addChild
      4 .thread 0 "early" rfl).addChild 3 .thread 1 "late" rfl
  rcases built_topologies_are_outlined hBuilt with
    ⟨hDepths, hOutlined, hMissing⟩
  have hSize : t.size = 7 := by decide +kernel
  have hOrder : t.subtree 1 = [1, 3] ++ 6 :: [4, 5] := by
    decide +kernel
  have hListing :
      t.listing 1 =
        "chip 0 (a)\n  core 0 (old)\n    thread 1 (late)\n" ++
          "  core 1 (young)\n    thread 0 (early)\n" := by
    decide +kernel
  have hClimbs : t.Climbs 6 3 0 :=
    .step (by decide +kernel : t.parent? 6 = some 3)
      (.step (by decide +kernel : t.parent? 3 = some 1)
        (.step (by decide +kernel : t.parent? 1 = some 0)
          (.stay 0)))
  have hDepth : 3 = t.depth 6 :=
    (hDepths 6 3).mp ⟨0, hClimbs, by decide +kernel⟩
  rcases (hOutlined 1 (by omega)).nested [1, 3] 6 [4, 5] hOrder
      (by decide) with ⟨_, parent, _, -, hParent, hIndent, -⟩
  exact ⟨t, hBuilt, hListing, hMissing 7 (by omega), hDepth.symm,
    parent, hParent, hIndent⟩

end CoreTally.Topology
