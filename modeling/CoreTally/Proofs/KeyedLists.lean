import Mathlib.Data.List.Forall2
import Mathlib.Data.List.Induction
import Mathlib.Data.List.Nodup
import Mathlib.Order.Bounds.Defs

/-
  Lists of keys with values. To look up a key finds its first
  entry, and keys that are kept when they are met for the first
  time are kept once, in the order in which they appear. Where
  numbers ascend along a list, this is the order of the least
  number that each key comes with.

  Key theorems include:
    * `KeyedLists.lookup_eq_none_iff`
    * `KeyedLists.mem_of_lookup`
    * `KeyedLists.lookup_of_mem`
    * `KeyedLists.value_eq_iff`
    * `KeyedLists.eraseDups_concat`
    * `KeyedLists.nodup_eraseDups`
    * `KeyedLists.exists_leasts`
-/

namespace CoreTally

namespace KeyedLists

variable {α : Type} [BEq α] [LawfulBEq α]

------------------------------------------------------------
-- Lookup
------------------------------------------------------------

theorem lookup_eq_none_iff
    {β : Type}
    (key : α)
    (entries : List (α × β)) :
    entries.lookup key = none ↔ key ∉ entries.map Prod.fst := by
  rw [List.lookup_eq_none_iff, List.mem_map]
  constructor
  · rintro hNone ⟨entry, hEntry, rfl⟩
    simpa using hNone entry hEntry
  · intro hAbsent entry hEntry
    apply bne_iff_ne.mpr
    rintro rfl
    exact hAbsent ⟨entry, hEntry, rfl⟩

theorem mem_of_lookup
    {β : Type}
    {key : α}
    {value : β}
    {entries : List (α × β)}
    (hLookup : entries.lookup key = some value) :
    (key, value) ∈ entries := by
  rcases List.lookup_eq_some_iff.mp hLookup with
    ⟨front, back, rfl, -⟩
  simp

/- Where keys are distinct, every entry is found. -/
theorem lookup_of_mem
    {β : Type}
    {key : α}
    {value : β}
    {entries : List (α × β)}
    (hKeys : (entries.map Prod.fst).Nodup)
    (hEntry : (key, value) ∈ entries) :
    entries.lookup key = some value := by
  rcases hLookup : entries.lookup key with _ | other
  · exact absurd (List.mem_map_of_mem hEntry)
      ((lookup_eq_none_iff key entries).mp hLookup)
  · have hSame :=
      List.inj_on_of_nodup_map hKeys hEntry
        (mem_of_lookup hLookup) rfl
    rw [(Prod.mk.inj hSame).2]

omit [BEq α] [LawfulBEq α] in
/- Where keys and values are distinct, each tells the other. -/
theorem value_eq_iff
    {β : Type}
    {entries : List (α × β)}
    (hKeys : (entries.map Prod.fst).Nodup)
    (hValues : (entries.map Prod.snd).Nodup)
    {key other : α}
    {value another : β}
    (hEntry : (key, value) ∈ entries)
    (hOther : (other, another) ∈ entries) :
    value = another ↔ key = other := by
  constructor
  · intro hSame
    exact congrArg Prod.fst
      (List.inj_on_of_nodup_map hValues hEntry hOther hSame)
  · intro hSame
    exact congrArg Prod.snd
      (List.inj_on_of_nodup_map hKeys hEntry hOther hSame)

------------------------------------------------------------
-- Lists in Step
------------------------------------------------------------

section InStep

variable {β γ : Type}
variable {related : β → γ → Prop}
variable {items : List β}
variable {images : List γ}
variable (hInStep : List.Forall₂ related items images)
include hInStep

/- Every item has an image. -/
theorem exists_image
    {item : β}
    (hItem : item ∈ items) :
    ∃ image ∈ images, related item image := by
  induction hInStep with
  | nil => contradiction
  | cons hRelated _ ih =>
      rcases List.mem_cons.mp hItem with rfl | hRest
      · exact ⟨_, List.mem_cons_self, hRelated⟩
      · rcases ih hRest with ⟨image, hImage, hRelated'⟩
        exact ⟨image, List.mem_cons_of_mem _ hImage, hRelated'⟩

/- Every image comes from an item. -/
theorem exists_item
    {image : γ}
    (hImage : image ∈ images) :
    ∃ item ∈ items, related item image := by
  have hFlipped : List.Forall₂ (flip related) images items :=
    List.Forall₂.flip hInStep
  exact exists_image hFlipped hImage

end InStep

------------------------------------------------------------
-- Distinct Items
------------------------------------------------------------

/- A last item is dropped when it was there before. -/
theorem eraseDups_concat
    (items : List α)
    (item : α) :
    (items ++ [item]).eraseDups =
      if item ∈ items then
        items.eraseDups
      else
        items.eraseDups ++ [item] := by
  rw [List.eraseDups_append, List.removeAll]
  by_cases hOld : item ∈ items
  · simp [hOld]
  · simp [hOld, List.eraseDups_cons]

theorem nodup_eraseDups
    (items : List α) :
    items.eraseDups.Nodup := by
  induction items using List.reverseRecOn with
  | nil => simp
  | append_singleton items item ih =>
      rw [eraseDups_concat]
      split
      · exact ih
      · rename_i hNew
        rw [List.nodup_append]
        refine ⟨ih, List.nodup_singleton _, ?_⟩
        rintro old hOld _ hItem rfl
        rw [List.mem_singleton.mp hItem, List.mem_eraseDups]
          at hOld
        exact hNew hOld

/-
  Along ascending numbers, the distinct keys are in the order of
  the least number that each of them comes with.
-/
theorem exists_leasts
    {ι : Type}
    (key : ι → α)
    (number : ι → UInt32)
    {items : List ι}
    (hAscend :
      items.Pairwise fun one other => number one < number other) :
    ∃ leasts : List UInt32,
      List.Forall₂
          (fun item least =>
            IsLeast
              {n | ∃ i ∈ items, key i = item ∧ number i = n}
              least)
          (items.map key).eraseDups leasts ∧
        leasts.Pairwise (· < ·) ∧
        ∀ least ∈ leasts, ∃ i ∈ items, number i = least := by
  induction items using List.reverseRecOn with
  | nil => exact ⟨[], by simp⟩
  | append_singleton items last ih =>
      rcases List.pairwise_append.mp hAscend with
        ⟨hBefore, -, hLast⟩
      rcases ih hBefore with ⟨leasts, hLeasts, hSorted, hFrom⟩
      have hLess : ∀ i ∈ items, number i < number last :=
        fun i hMem => hLast i hMem last (List.mem_singleton_self _)
      -- A greater number changes no least one.
      have hKept :
          List.Forall₂
            (fun item least =>
              IsLeast
                {n | ∃ i ∈ items ++ [last],
                  key i = item ∧ number i = n}
                least)
            (items.map key).eraseDups leasts := by
        refine hLeasts.imp ?_
        rintro item least ⟨⟨i, hMem, hKey, rfl⟩, hBound⟩
        refine ⟨⟨i, by simp [hMem], hKey, rfl⟩, ?_⟩
        rintro n ⟨j, hOther, hSame, rfl⟩
        rcases List.mem_append.mp hOther with hOld | hNew
        · exact hBound ⟨j, hOld, hSame, rfl⟩
        · rw [List.mem_singleton.mp hNew]
          exact UInt32.le_of_lt (hLess i hMem)
      rw [List.map_append, List.map_singleton, eraseDups_concat]
      split
      · refine ⟨leasts, hKept, hSorted, ?_⟩
        intro least hLeast
        rcases hFrom least hLeast with ⟨i, hMem, hNumber⟩
        exact ⟨i, by simp [hMem], hNumber⟩
      · rename_i hNew
        refine ⟨leasts ++ [number last], ?_, ?_, ?_⟩
        · apply List.rel_append hKept
          refine .cons ⟨⟨last, by simp, rfl, rfl⟩, ?_⟩ .nil
          rintro n ⟨j, hOther, hSame, rfl⟩
          rcases List.mem_append.mp hOther with hOld | hLast'
          · exact absurd (List.mem_map.mpr ⟨j, hOld, hSame⟩) hNew
          · rw [List.mem_singleton.mp hLast']
            exact UInt32.le_refl _
        · rw [List.pairwise_append]
          refine ⟨hSorted, List.pairwise_singleton _ _, ?_⟩
          intro least hLeast n hNumber
          rcases hFrom least hLeast with ⟨i, hMem, rfl⟩
          rw [List.mem_singleton.mp hNumber]
          exact hLess i hMem
        · intro least hLeast
          rcases List.mem_append.mp hLeast with hOld | hNumber
          · rcases hFrom least hOld with ⟨i, hMem, hNumber⟩
            exact ⟨i, by simp [hMem], hNumber⟩
          · exact ⟨last, by simp,
              (List.mem_singleton.mp hNumber).symm⟩

end KeyedLists

end CoreTally
