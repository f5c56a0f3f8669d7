import CoreTally.Proofs.Numerals
import CoreTally.Proofs.SortedLists
import CoreTally.Topology.CpuList
import Mathlib.Data.List.Sort
import Mathlib.Tactic.MkIffOfInductiveProp

/-
  A list of processors is a row of pieces between commas, each of
  which is a number or a range of numbers. A text is read exactly
  when it is such a list, and what is read are the processors that
  it denotes, in ascending order.

  Key definitions include:
    * `CpuList.Piece`
    * `CpuList.parts`
    * `CpuList.WellFormed`
    * `CpuList.Denotes`

  Key theorems include:
    * `CpuList.range?_eq_some_iff`
    * `CpuList.parse?_eq_none_iff`
    * `CpuList.parse?_eq_some_iff`
    * `CpuList.parse?_congr`
-/

namespace CoreTally

namespace CpuList

------------------------------------------------------------
-- Pieces
------------------------------------------------------------

/-
  A piece is a number, or two numbers around its first dash, with
  blanks around them, of which the second is no smaller.
-/
inductive Piece : List Char → Range → Prop
| number
    {text : List Char}
    {cpu : UInt32}
    (hText : Text.Literal text cpu.toNat) :
    Piece text ⟨cpu, cpu⟩
| between
    {before after : List Char}
    {first last : UInt32}
    (hDash : '-' ∉ before)
    (hBefore : Text.Literal (Text.trim before) first.toNat)
    (hAfter : Text.Literal (Text.trim after) last.toNat)
    (hOrder : first ≤ last) :
    Piece (before ++ '-' :: after) ⟨first, last⟩

/- A range is read from a piece, and from nothing else. -/
theorem range?_eq_some_iff
    (text : List Char)
    (range : Range) :
    range? text = some range ↔ Piece text range := by
  rw [range?]
  constructor
  · intro hRange
    split at hRange
    · rcases Option.map_eq_some_iff.mp hRange with ⟨cpu, hCpu, rfl⟩
      exact .number ((Text.uint32?_eq_some_iff _ _).mp hCpu)
    · rename_i before after hCut
      rcases (Text.cutOnce?_eq_some_iff _ _ _ _).mp hCut with
        ⟨hDash, rfl⟩
      split at hRange
      · rename_i first last hFirst hLast
        split at hRange
        · rename_i hOrder
          rw [← Option.some.inj hRange]
          exact .between hDash
            ((Text.uint32?_eq_some_iff _ _).mp hFirst)
            ((Text.uint32?_eq_some_iff _ _).mp hLast) hOrder
        · contradiction
      · contradiction
  · rintro (⟨hText⟩ | ⟨hDash, hBefore, hAfter, hOrder⟩)
    · have hCut :=
        (Text.cutOnce?_eq_none_iff '-' text).mpr
          hText.dash_not_mem
      rw [hCut]
      simp [(Text.uint32?_eq_some_iff _ _).mpr hText]
    · rw [Text.cutOnce?_append_cons hDash]
      simp [(Text.uint32?_eq_some_iff _ _).mpr hBefore,
        (Text.uint32?_eq_some_iff _ _).mpr hAfter, hOrder]

/- A piece is a range in one way only. -/
theorem Piece.unique
    {text : List Char}
    {range other : Range}
    (hRange : Piece text range)
    (hOther : Piece text other) :
    range = other := by
  rw [← range?_eq_some_iff] at hRange hOther
  exact Option.some.inj (hRange.symm.trans hOther)

theorem Range.mem_iff
    (r : Range)
    (cpu : UInt32) :
    r.Mem cpu ↔
      r.first.toNat ≤ cpu.toNat ∧ cpu.toNat ≤ r.last.toNat := by
  rw [Mem, UInt32.le_iff_toNat_le, UInt32.le_iff_toNat_le]

theorem Range.mem_toList_iff
    (r : Range)
    (cpu : UInt32) :
    cpu ∈ r.toList ↔ r.Mem cpu := by
  have hLast : r.last.toNat < UInt32.size := r.last.toNat_lt
  rw [toList, mem_iff, List.mem_map]
  constructor
  · rintro ⟨n, hMem, rfl⟩
    rw [List.mem_range'_1] at hMem
    rw [UInt32.toNat_ofNat_of_lt' (by omega)]
    omega
  · rintro ⟨hFirst, hCpu⟩
    refine ⟨cpu.toNat, ?_, UInt32.ofNat_toNat⟩
    rw [List.mem_range'_1]
    omega

------------------------------------------------------------
-- Lists
------------------------------------------------------------

/- The parts of a text between commas, without blank ones. -/
def parts (text : String) : List (List Char) :=
  (((Text.trim text.toList).splitOn ',').map Text.trim).filter
    (· ≠ [])

/- A text is a list if it is not blank and its parts are pieces. -/
@[mk_iff] structure WellFormed (text : String) : Prop where
  present : Text.trim text.toList ≠ []
  pieces : ∀ part ∈ parts text, ∃ range, Piece part range

/- A text denotes the processors in the ranges of its pieces. -/
def Denotes (text : String) (cpu : UInt32) : Prop :=
  ∃ part ∈ parts text, ∃ range, Piece part range ∧ range.Mem cpu

/- The ranges of the pieces, in the order of the text. -/
def rangesOf (text : String) : List Range :=
  (parts text).filterMap range?

theorem denotes_iff
    (text : String)
    (cpu : UInt32) :
    Denotes text cpu ↔ ∃ range ∈ rangesOf text, range.Mem cpu := by
  simp only [Denotes, rangesOf, List.mem_filterMap,
    range?_eq_some_iff]
  constructor
  · rintro ⟨part, hPart, range, hPiece, hMem⟩
    exact ⟨range, ⟨part, hPart, hPiece⟩, hMem⟩
  · rintro ⟨range, ⟨part, hPart, hPiece⟩, hMem⟩
    exact ⟨part, hPart, range, hPiece, hMem⟩

theorem pieces_iff
    (text : String) :
    (∀ part ∈ parts text, ∃ range, Piece part range) ↔
      ((parts text).all fun part => (range? part).isSome) = true := by
  simp only [List.all_eq_true, Option.isSome_iff_exists,
    range?_eq_some_iff]

instance (text : String) : Decidable (WellFormed text) :=
  decidable_of_iff
    (Text.trim text.toList ≠ [] ∧
      ((parts text).all fun part => (range? part).isSome) = true)
    (by rw [wellFormed_iff, pieces_iff])

------------------------------------------------------------
-- Reading
------------------------------------------------------------

theorem pieces_eq_parts
    (text : String) :
    pieces (Text.trim text.toList) = parts text := by
  rw [pieces, parts, Text.cut_eq_splitOnP, List.splitOn]
  apply List.filter_congr
  intro part _
  cases part <;> rfl

/- Items are mapped together if each of them is mapped. -/
theorem mapM_eq
    {α β : Type}
    (step? : α → Option β)
    (items : List α) :
    items.mapM step? =
      if items.all fun item => (step? item).isSome then
        some (items.filterMap step?)
      else
        none := by
  induction items with
  | nil => rfl
  | cons item items ih =>
      rw [List.mapM_cons, ih, List.all_cons, List.filterMap_cons]
      rcases step? item with _ | result
      · rfl
      · split <;> simp_all

theorem parse?_eq
    (text : String) :
    parse? text =
      if WellFormed text then
        some (ascending ((rangesOf text).flatMap Range.toList))
      else
        none := by
  rw [parse?, pieces_eq_parts, mapM_eq]
  by_cases hBlank : Text.trim text.toList = []
  · simp [wellFormed_iff, hBlank]
  · simp only [List.isEmpty_iff, hBlank, wellFormed_iff, ne_eq,
      pieces_iff, not_false_eq_true, true_and, if_false]
    split <;> rfl

theorem pairwise_ascending
    (cpus : List UInt32) :
    (ascending cpus).Pairwise (· < ·) := by
  have hSorted :=
    SortedLists.pairwise_sortedItems
      (fun one other : UInt32 => one ≤ other)
      (by
        intro one other third
        simpa using UInt32.le_trans)
      (by
        intro one other
        simpa using UInt32.le_total one other)
      (by
        intro one other
        simpa using UInt32.le_antisymm)
      cpus
  refine hSorted.imp ?_
  rintro one other ⟨hLe, hNe⟩
  exact UInt32.lt_of_le_of_ne (of_decide_eq_true hLe) hNe

theorem mem_ascending_iff
    (text : String)
    (cpu : UInt32) :
    cpu ∈ ascending ((rangesOf text).flatMap Range.toList) ↔
      Denotes text cpu := by
  simp only [ascending, SortedLists.mem_sortedItems_iff,
    List.mem_flatMap, Range.mem_toList_iff, denotes_iff]

/- A text is refused only if it is no list. -/
theorem parse?_eq_none_iff
    (text : String) :
    parse? text = none ↔ ¬ WellFormed text := by
  rw [parse?_eq]
  split <;> simp [*]

/- What is read are the denoted processors, in ascending order. -/
theorem parse?_eq_some_iff
    (text : String)
    (cpus : List UInt32) :
    parse? text = some cpus ↔
      WellFormed text ∧
        cpus.Pairwise (· < ·) ∧
          ∀ cpu, cpu ∈ cpus ↔ Denotes text cpu := by
  rw [parse?_eq]
  constructor
  · intro hList
    split at hList
    · rename_i hText
      cases Option.some.inj hList
      exact ⟨hText, pairwise_ascending _, mem_ascending_iff text⟩
    · contradiction
  · rintro ⟨hText, hAscend, hMem⟩
    rw [if_pos hText]
    congr 1
    apply (pairwise_ascending _).eq_of_mem_iff hAscend
    intro cpu
    exact (mem_ascending_iff text cpu).trans (hMem cpu).symm

/- Lists that denote the same processors are read alike. -/
theorem parse?_congr
    {text other : String}
    (hText : WellFormed text ↔ WellFormed other)
    (hSame : ∀ cpu, Denotes text cpu ↔ Denotes other cpu) :
    parse? text = parse? other := by
  rcases hList : parse? other with _ | cpus
  · rw [parse?_eq_none_iff] at hList ⊢
    rwa [hText]
  · rw [parse?_eq_some_iff] at hList ⊢
    simpa only [hText, hSame] using hList

end CpuList

end CoreTally
