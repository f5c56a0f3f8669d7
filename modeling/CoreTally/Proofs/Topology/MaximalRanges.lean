import CoreTally.Proofs.Topology.CpuList
import Mathlib.Data.Finset.Sort

/-
  The maximal ranges of a set of processors, between any two of
  which a processor is missing, make up a list. Lists are read as
  the processors that they denote, so that a set is read from the
  list of its maximal ranges.

  Key definitions include:
    * `CpuList.MaximalRanges`
    * `CpuList.ranges`
    * `CpuList.print`

  Key theorems include:
    * `CpuList.MaximalRanges.join`
    * `CpuList.maximalRanges_ranges`
    * `CpuList.parts_print`
    * `CpuList.lists_are_read_as_denoted`
-/

namespace CoreTally

namespace CpuList

------------------------------------------------------------
-- Maximal Ranges
------------------------------------------------------------

/- Ranges of a set with processors missing in between. -/
structure MaximalRanges
    (ranges : List Range)
    (cpus : Set UInt32) : Prop where
  ordered : ∀ r ∈ ranges, r.first ≤ r.last
  apart :
    ranges.Pairwise fun r s => r.last.toNat + 1 < s.first.toNat
  mem_iff : ∀ cpu, cpu ∈ cpus ↔ ∃ r ∈ ranges, r.Mem cpu

/- Ranges with one more processor ahead of them. -/
def joinRanges (cpu : UInt32) : List Range → List Range
| [] => [⟨cpu, cpu⟩]
| r :: ranges =>
    if r.first.toNat = cpu.toNat + 1 then
      ⟨cpu, r.last⟩ :: ranges
    else
      ⟨cpu, cpu⟩ :: r :: ranges

/- The ranges of a set of processors, ascending. -/
def ranges (cpus : Finset UInt32) : List Range :=
  (cpus.sort (· ≤ ·)).foldr joinRanges []

section Join

variable {ranges : List Range}
variable {cpu : UInt32}

/- A processor starts a range, or the first range starts there. -/
theorem mem_joinRanges_iff
    (hOrdered : ∀ r ∈ ranges, r.first ≤ r.last)
    (other : UInt32) :
    (∃ r ∈ joinRanges cpu ranges, r.Mem other) ↔
      other = cpu ∨ ∃ r ∈ ranges, r.Mem other := by
  have hAlone : Range.Mem other ⟨cpu, cpu⟩ ↔ other = cpu := by
    rw [Range.mem_iff, ← UInt32.toNat_inj]
    dsimp only
    omega
  rcases ranges with _ | ⟨r, ranges⟩
  · simp [joinRanges, hAlone]
  · rw [joinRanges]
    split
    · rename_i hNext
      have hOrder :=
        UInt32.le_iff_toNat_le.mp (hOrdered r List.mem_cons_self)
      -- Nothing is missing between the processor and the range.
      have hLonger :
          Range.Mem other ⟨cpu, r.last⟩ ↔
            other = cpu ∨ r.Mem other := by
        rw [Range.mem_iff, Range.mem_iff, ← UInt32.toNat_inj]
        dsimp only
        omega
      simp [hLonger, or_assoc]
    · simp [hAlone]

theorem ordered_joinRanges
    (hOrdered : ∀ r ∈ ranges, r.first ≤ r.last)
    (hAhead : ∀ r ∈ ranges, cpu < r.first) :
    ∀ r ∈ joinRanges cpu ranges, r.first ≤ r.last := by
  rcases ranges with _ | ⟨r, ranges⟩
  · simp [joinRanges]
  · rw [joinRanges]
    split
    · rcases List.forall_mem_cons.mp hOrdered with ⟨hOrder, hRest⟩
      have hLess := hAhead r List.mem_cons_self
      exact List.forall_mem_cons.mpr
        ⟨UInt32.le_trans (UInt32.le_of_lt hLess) hOrder, hRest⟩
    · exact List.forall_mem_cons.mpr ⟨UInt32.le_refl _, hOrdered⟩

/- A range of its own is further than one processor away. -/
theorem apart_joinRanges
    (hOrdered : ∀ r ∈ ranges, r.first ≤ r.last)
    (hAhead : ∀ r ∈ ranges, cpu < r.first)
    (hApart :
      ranges.Pairwise fun r s =>
        r.last.toNat + 1 < s.first.toNat) :
    (joinRanges cpu ranges).Pairwise fun r s =>
      r.last.toNat + 1 < s.first.toNat := by
  rcases ranges with _ | ⟨r, ranges⟩
  · exact List.pairwise_singleton _ _
  · rcases List.pairwise_cons.mp hApart with ⟨hGap, hRest⟩
    rw [joinRanges]
    split
    · exact List.pairwise_cons.mpr ⟨hGap, hRest⟩
    · rename_i hNext
      have hLess := hAhead r List.mem_cons_self
      have hOrder := hOrdered r List.mem_cons_self
      rw [UInt32.lt_iff_toNat_lt] at hLess
      rw [UInt32.le_iff_toNat_le] at hOrder
      refine List.pairwise_cons.mpr
        ⟨List.forall_mem_cons.mpr ⟨?_, ?_⟩, hApart⟩
      · dsimp only
        omega
      · intro s hLater
        have hFar := hGap s hLater
        dsimp only
        omega

/- A processor is put ahead of the ranges of those behind it. -/
theorem MaximalRanges.join
    {cpus : Set UInt32}
    (hRanges : MaximalRanges ranges cpus)
    (hFirst : ∀ other ∈ cpus, cpu < other) :
    MaximalRanges (joinRanges cpu ranges) (insert cpu cpus) := by
  have hAhead : ∀ r ∈ ranges, cpu < r.first := by
    intro r hMem
    have hOrder := hRanges.ordered r hMem
    exact hFirst _
      ((hRanges.mem_iff _).mpr ⟨r, hMem, UInt32.le_refl _, hOrder⟩)
  refine
    ⟨ordered_joinRanges hRanges.ordered hAhead,
      apart_joinRanges hRanges.ordered hAhead hRanges.apart, ?_⟩
  intro other
  rw [mem_joinRanges_iff hRanges.ordered, Set.mem_insert_iff,
    hRanges.mem_iff]

end Join

theorem sort_ascends
    (cpus : Finset UInt32) :
    (cpus.sort (· ≤ ·)).Pairwise (· < ·) := by
  have hSorted := Finset.pairwise_sort cpus (· ≤ ·)
  have hApart := Finset.sort_nodup cpus (· ≤ ·)
  refine (hSorted.and hApart).imp ?_
  rintro one other ⟨hLe, hNe⟩
  exact UInt32.lt_of_le_of_ne hLe hNe

/- Numbers that ascend are put ahead of each other from the last. -/
theorem maximalRanges_foldr
    {cpus : List UInt32}
    (hAscend : cpus.Pairwise (· < ·)) :
    MaximalRanges (cpus.foldr joinRanges []) {cpu | cpu ∈ cpus} := by
  induction cpus with
  | nil => exact ⟨by simp, List.Pairwise.nil, by simp⟩
  | cons cpu cpus ih =>
      rcases List.pairwise_cons.mp hAscend with ⟨hFirst, hRest⟩
      have hInsert :
          {other | other ∈ cpu :: cpus} =
            insert cpu {other | other ∈ cpus} := by
        ext other
        simp
      rw [hInsert]
      exact (ih hRest).join hFirst

theorem maximalRanges_ranges
    (cpus : Finset UInt32) :
    MaximalRanges (ranges cpus) cpus := by
  have hSort :
      {cpu | cpu ∈ cpus.sort (· ≤ ·)} = (cpus : Set UInt32) := by
    ext cpu
    simp
  rw [← hSort]
  exact maximalRanges_foldr (sort_ascends cpus)

------------------------------------------------------------
-- Printing
------------------------------------------------------------

/- The text of a range, or of a number if there is only one. -/
def Range.text (r : Range) : List Char :=
  if r.first = r.last then
    Nat.toDigits 10 r.first.toNat
  else
    Nat.toDigits 10 r.first.toNat ++
      '-' :: Nat.toDigits 10 r.last.toNat

/- The list of the maximal ranges of a set of processors. -/
def print (cpus : Finset UInt32) : String :=
  String.ofList ([','].intercalate ((ranges cpus).map Range.text))

theorem trim_toDigits
    (n : Nat) :
    Text.trim (Nat.toDigits 10 n) = Nat.toDigits 10 n :=
  Text.trim_eq_self fun c hMem =>
    Text.isBlank_of_isDigit
      ((Text.numeral_toDigits n).digits c hMem)

/- A range is read from its text. -/
theorem Range.piece_text
    {r : Range}
    (hOrder : r.first ≤ r.last) :
    Piece r.text r := by
  have hLiteral :
      ∀ n, Text.Literal (Nat.toDigits 10 n) n := fun n =>
    .plain (Text.numeral_toDigits n)
  rcases r with ⟨first, last⟩
  rw [text]
  split
  · rename_i hSame
    cases hSame
    exact .number (hLiteral _)
  · apply Piece.between (hLiteral _).dash_not_mem
    · rw [trim_toDigits]
      exact hLiteral _
    · rw [trim_toDigits]
      exact hLiteral _
    · exact hOrder

theorem Range.mem_text
    {r : Range}
    {c : Char}
    (hMem : c ∈ r.text) :
    c.isDigit = true ∨ c = '-' := by
  have hDigit :
      ∀ {n}, c ∈ Nat.toDigits 10 n → c.isDigit = true :=
    fun hMem => (Text.numeral_toDigits _).digits c hMem
  rw [text] at hMem
  split at hMem
  · exact .inl (hDigit hMem)
  · rcases List.mem_append.mp hMem with hFirst | hRest
    · exact .inl (hDigit hFirst)
    · rcases List.mem_cons.mp hRest with hDash | hLast
      · exact .inr hDash
      · exact .inl (hDigit hLast)

theorem Range.isBlank_of_mem_text
    {r : Range}
    {c : Char}
    (hMem : c ∈ r.text) :
    Text.isBlank c = false := by
  rcases mem_text hMem with hDigit | rfl
  · exact Text.isBlank_of_isDigit hDigit
  · rfl

theorem Range.comma_not_mem_text
    (r : Range) :
    ',' ∉ r.text := by
  intro hMem
  rcases mem_text hMem with hDigit | hDash
  · exact absurd hDigit (by decide)
  · exact absurd hDash (by decide)

theorem Range.text_ne_nil
    (r : Range) :
    r.text ≠ [] := by
  rw [text]
  split <;> simp [Nat.toDigits_ne_nil]

theorem ranges_ne_nil
    {cpus : Finset UInt32}
    (hSome : cpus.Nonempty) :
    ranges cpus ≠ [] := by
  rcases hSome with ⟨cpu, hMem⟩
  rcases ((maximalRanges_ranges cpus).mem_iff cpu).mp hMem with
    ⟨r, hRange, -⟩
  exact List.ne_nil_of_mem hRange

/- Joined texts hold what the texts hold, and separators. -/
theorem mem_intercalate
    {separator c : Char}
    {texts : List (List Char)}
    (hMem : c ∈ [separator].intercalate texts) :
    c = separator ∨ ∃ text ∈ texts, c ∈ text := by
  rcases texts with _ | ⟨text, texts⟩
  · exact absurd hMem List.not_mem_nil
  · rw [Text.intercalate_cons] at hMem
    rcases List.mem_append.mp hMem with hFirst | hRest
    · exact .inr ⟨text, List.mem_cons_self, hFirst⟩
    · rcases List.mem_flatMap.mp hRest with ⟨next, hNext, hMem⟩
      rcases List.mem_append.mp hMem with hSeparator | hText
      · exact .inl (List.mem_singleton.mp hSeparator)
      · exact .inr ⟨next, List.mem_cons_of_mem _ hNext, hText⟩

theorem trim_print
    (cpus : Finset UInt32) :
    Text.trim (print cpus).toList = (print cpus).toList := by
  apply Text.trim_eq_self
  intro c hMem
  rw [print, String.toList_ofList] at hMem
  rcases mem_intercalate hMem with rfl | ⟨text, hText, hMem⟩
  · rfl
  · rcases List.mem_map.mp hText with ⟨r, -, rfl⟩
    exact Range.isBlank_of_mem_text hMem

/- The pieces of what is printed are the texts of the ranges. -/
theorem parts_print
    {cpus : Finset UInt32}
    (hSome : cpus.Nonempty) :
    parts (print cpus) = (ranges cpus).map Range.text := by
  have hTrim : ∀ r : Range, Text.trim r.text = r.text := fun r =>
    Text.trim_eq_self fun _ hMem => Range.isBlank_of_mem_text hMem
  have hComma :
      ∀ text ∈ (ranges cpus).map Range.text, ',' ∉ text := by
    intro text hText
    rcases List.mem_map.mp hText with ⟨r, -, rfl⟩
    exact r.comma_not_mem_text
  have hTexts : (ranges cpus).map Range.text ≠ [] := by
    simpa using ranges_ne_nil hSome
  rw [parts, trim_print, print, String.toList_ofList,
    List.splitOn_intercalate ',' hComma hTexts,
    List.map_map, List.filter_eq_self.mpr]
  · exact List.map_congr_left fun r _ => hTrim r
  · intro text hText
    rcases List.mem_map.mp hText with ⟨r, -, rfl⟩
    simpa [hTrim] using r.text_ne_nil

theorem print_ne_blank
    {cpus : Finset UInt32}
    (hSome : cpus.Nonempty) :
    Text.trim (print cpus).toList ≠ [] := by
  intro hBlank
  have hParts := parts_print hSome
  rw [parts, hBlank] at hParts
  have hNone : (ranges cpus).map Range.text = [] := hParts.symm
  exact ranges_ne_nil hSome (List.map_eq_nil_iff.mp hNone)

theorem wellFormed_print
    {cpus : Finset UInt32}
    (hSome : cpus.Nonempty) :
    WellFormed (print cpus) := by
  refine ⟨print_ne_blank hSome, ?_⟩
  rw [parts_print hSome]
  intro part hPart
  rcases List.mem_map.mp hPart with ⟨r, hMem, rfl⟩
  exact ⟨r, Range.piece_text
    ((maximalRanges_ranges cpus).ordered r hMem)⟩

theorem denotes_print_iff
    {cpus : Finset UInt32}
    (hSome : cpus.Nonempty)
    (cpu : UInt32) :
    Denotes (print cpus) cpu ↔ cpu ∈ cpus := by
  have hRanges := maximalRanges_ranges cpus
  rw [Denotes, parts_print hSome, ← Finset.mem_coe,
    hRanges.mem_iff]
  constructor
  · rintro ⟨_, hPart, range, hPiece, hMem⟩
    rcases List.mem_map.mp hPart with ⟨r, hRange, rfl⟩
    have hText := Range.piece_text (hRanges.ordered r hRange)
    rw [hPiece.unique hText] at hMem
    exact ⟨r, hRange, hMem⟩
  · rintro ⟨r, hRange, hMem⟩
    exact ⟨r.text, List.mem_map_of_mem hRange, r,
      Range.piece_text (hRanges.ordered r hRange), hMem⟩

/- What is printed is read as the set, in ascending order. -/
theorem parse?_print
    {cpus : Finset UInt32}
    (hSome : cpus.Nonempty) :
    parse? (print cpus) = some (cpus.sort (· ≤ ·)) := by
  rw [parse?_eq_some_iff]
  refine ⟨wellFormed_print hSome, sort_ascends cpus, ?_⟩
  intro cpu
  rw [Finset.mem_sort, denotes_print_iff hSome]

------------------------------------------------------------
-- Reading
------------------------------------------------------------

/-
  A text is refused when it is blank or has a part that is no
  piece, and else is read as the processors that it denotes, each
  of them once and in ascending order. So texts with the same
  parts in any order, and lists of the same processors whatever
  their pieces, are read alike, and a set is read from the list of
  its maximal ranges.
-/
theorem lists_are_read_as_denoted :
    (∀ text,
      parse? text = none ↔
        Text.trim text.toList = [] ∨
          ∃ part ∈ parts text, ∀ range, ¬ Piece part range) ∧
    (∀ text cpus,
      parse? text = some cpus ↔
        WellFormed text ∧
          cpus.Pairwise (· < ·) ∧
            ∀ cpu, cpu ∈ cpus ↔ Denotes text cpu) ∧
    (∀ text other,
      (Text.trim text.toList = [] ↔ Text.trim other.toList = []) →
        (∀ part, part ∈ parts text ↔ part ∈ parts other) →
          parse? text = parse? other) ∧
    (∀ text other,
      WellFormed text →
        WellFormed other →
          (∀ cpu, Denotes text cpu ↔ Denotes other cpu) →
            parse? text = parse? other) ∧
    ∀ cpus : Finset UInt32,
      cpus.Nonempty →
        MaximalRanges (ranges cpus) cpus ∧
          parse? (print cpus) = some (cpus.sort (· ≤ ·)) := by
  refine ⟨?_, parse?_eq_some_iff, ?_, ?_, ?_⟩
  · intro text
    simp only [parse?_eq_none_iff, wellFormed_iff, not_and_or,
      not_not, not_forall, not_exists, exists_prop]
  · intro text other hBlank hParts
    apply parse?_congr
    · simp only [wellFormed_iff, ne_eq, hBlank, hParts]
    · simp only [Denotes, hParts, implies_true]
  · intro text other hText hOther hSame
    exact parse?_congr (iff_of_true hText hOther) hSame
  · intro cpus hSome
    exact ⟨maximalRanges_ranges cpus, parse?_print hSome⟩

/-
  Blank pieces, plus signs and ranges that overlap make no
  difference, and a single processor is printed as its number.
-/
theorem lists_are_read_as_denoted_in_pieces :
    WellFormed "2,0-1" ∧
      WellFormed " 1 - 2,, +0 ,2" ∧
        parse? "2,0-1" = parse? " 1 - 2,, +0 ,2" ∧
          parse? (print {7}) = some [7] := by
  have hText : WellFormed "2,0-1" := by decide
  have hOther : WellFormed " 1 - 2,, +0 ,2" := by decide
  have hRanges : rangesOf "2,0-1" = [⟨2, 2⟩, ⟨0, 1⟩] := by rfl
  have hRanges' :
      rangesOf " 1 - 2,, +0 ,2" = [⟨1, 2⟩, ⟨0, 0⟩, ⟨2, 2⟩] := by rfl
  have hSame :
      ∀ cpu,
        Denotes "2,0-1" cpu ↔ Denotes " 1 - 2,, +0 ,2" cpu := by
    intro cpu
    rw [denotes_iff, denotes_iff, hRanges, hRanges']
    simp only [Range.mem_iff, List.mem_cons, List.not_mem_nil,
      or_false, exists_eq_or_imp, exists_eq_left,
      UInt32.reduceToNat, UInt32.toNat_zero]
    omega
  rcases lists_are_read_as_denoted with
    ⟨-, -, -, hDenoted, hPrinted⟩
  refine ⟨hText, hOther, hDenoted _ _ hText hOther hSame, ?_⟩
  rw [(hPrinted {7} (Finset.singleton_nonempty 7)).2,
    Finset.sort_singleton]

end CpuList

end CoreTally
