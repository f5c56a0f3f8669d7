/-
  To sort a list and to drop what is repeated leaves each of its
  items once, in ascending order.

  Key theorems include:
    * `SortedLists.eraseReps_cons_cons`
    * `SortedLists.mem_sortedItems_iff`
    * `SortedLists.pairwise_sortedItems`
-/

namespace CoreTally

namespace SortedLists

variable {α : Type} [BEq α]

------------------------------------------------------------
-- Repetitions
------------------------------------------------------------

/- What is gathered so far comes first. -/
theorem loop_eq
    (item : α)
    (items gathered : List α) :
    List.eraseRepsBy.loop (· == ·) item items gathered =
      gathered.reverse ++ (item :: items).eraseReps := by
  have hLoop :
      ∀ gathered,
        List.eraseRepsBy.loop (· == ·) item items gathered =
          gathered.reverse ++
            List.eraseRepsBy.loop (· == ·) item items [] := by
    induction items generalizing item with
    | nil => simp [List.eraseRepsBy.loop]
    | cons next items ih =>
        intro gathered
        rw [List.eraseRepsBy.loop, List.eraseRepsBy.loop]
        split
        · exact ih item gathered
        · rw [ih next (item :: gathered), ih next [item]]
          simp
  exact hLoop gathered

/- An item that is followed by itself is dropped. -/
theorem eraseReps_cons_cons
    (item next : α)
    (items : List α) :
    (item :: next :: items).eraseReps =
      if item == next then
        (item :: items).eraseReps
      else
        item :: (next :: items).eraseReps := by
  change List.eraseRepsBy.loop (· == ·) item (next :: items) [] = _
  rw [List.eraseRepsBy.loop]
  split
  · rename_i hSame
    rw [if_pos hSame, loop_eq]
    rfl
  · rename_i hOther
    rw [if_neg (by simp [hOther]), loop_eq]
    rfl

variable [LawfulBEq α]

/- An item is kept once where it was repeated. -/
theorem mem_eraseReps_iff
    (item : α)
    (items : List α) :
    item ∈ items.eraseReps ↔ item ∈ items := by
  cases items with
  | nil => rfl
  | cons first items =>
      induction items generalizing first with
      | nil => rfl
      | cons next items ih =>
          rw [eraseReps_cons_cons]
          by_cases hSame : first = next
          · subst hSame
            rw [if_pos (by simp), ih]
            simp
          · rw [if_neg (by simpa using hSame), List.mem_cons, ih]
            simp

/- Without repetitions, items that ascend ascend strictly. -/
theorem pairwise_eraseReps
    {le : α → α → Bool}
    (hAntisymm :
      ∀ one other, le one other = true → le other one = true →
        one = other)
    {items : List α}
    (hAscend : items.Pairwise fun one other => le one other) :
    items.eraseReps.Pairwise fun one other =>
      le one other = true ∧ one ≠ other := by
  cases items with
  | nil => exact List.Pairwise.nil
  | cons first items =>
      induction items generalizing first with
      | nil => exact List.pairwise_singleton _ _
      | cons next items ih =>
          rcases List.pairwise_cons.mp hAscend with
            ⟨hFirst, hRest⟩
          rw [eraseReps_cons_cons]
          by_cases hSame : first = next
          · subst hSame
            rw [if_pos (by simp)]
            exact ih first hRest
          · rw [if_neg (by simpa using hSame)]
            refine List.pairwise_cons.mpr ⟨?_, ih next hRest⟩
            intro later hLater
            have hMem := (mem_eraseReps_iff _ _).mp hLater
            refine ⟨hFirst later hMem, ?_⟩
            rintro rfl
            -- The item would come again behind a greater one.
            rcases List.mem_cons.mp hMem with hNext | hBehind
            · exact hSame hNext
            · exact hSame
                (hAntisymm _ _ (hFirst next List.mem_cons_self)
                  ((List.pairwise_cons.mp hRest).1 _ hBehind))

------------------------------------------------------------
-- Sorted Items
------------------------------------------------------------

theorem mem_sortedItems_iff
    (le : α → α → Bool)
    (item : α)
    (items : List α) :
    item ∈ (items.mergeSort le).eraseReps ↔ item ∈ items := by
  rw [mem_eraseReps_iff, List.mem_mergeSort]

/- Sorted items without repetitions ascend strictly. -/
theorem pairwise_sortedItems
    (le : α → α → Bool)
    (hTrans :
      ∀ one other third,
        le one other = true → le other third = true →
          le one third = true)
    (hTotal :
      ∀ one other, (le one other || le other one) = true)
    (hAntisymm :
      ∀ one other, le one other = true → le other one = true →
        one = other)
    (items : List α) :
    (items.mergeSort le).eraseReps.Pairwise fun one other =>
      le one other = true ∧ one ≠ other :=
  pairwise_eraseReps hAntisymm
    (List.pairwise_mergeSort hTrans hTotal items)

end SortedLists

end CoreTally
