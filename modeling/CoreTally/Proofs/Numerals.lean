import CoreTally.Text.Blank
import CoreTally.Text.Numeral

/-
  A numeral is a row of decimal digits and denotes a number. What
  is read as a number is a numeral with at most one sign in front,
  as long as the number is in the range of its type. A minus sign
  is read for signed types only.

  Key definitions include:
    * `Text.Numeral`
    * `Text.Literal`
    * `Text.Signed`

  Key theorems include:
    * `Text.natural?_eq_some_iff`
    * `Text.uint32?_eq_some_iff`
    * `Text.uint64?_eq_some_iff`
    * `Text.int64?_eq_some_iff`
    * `Text.numeral_toDigits`
-/

namespace CoreTally

namespace Text

------------------------------------------------------------
-- Decimal Digits
------------------------------------------------------------

theorem digitValue?_of_isDigit
    {c : Char}
    (hDigit : c.isDigit = true) :
    digitValue? c = some (c.toNat - '0'.toNat) := by
  rw [digitValue?, if_pos hDigit]

/- A letter is no decimal digit, though it has a value. -/
theorem isDigitOf_ten_iff
    (c : Char) :
    isDigitOf 10 c = true ↔ c.isDigit = true := by
  rw [isDigitOf]
  by_cases hDigit : c.isDigit = true
  · have hRange := Char.isDigit_iff_toNat.mp hDigit
    have hNine : '9'.toNat = '0'.toNat + 9 := rfl
    have hLess : c.toNat - '0'.toNat < 10 := by omega
    simpa [digitValue?_of_isDigit hDigit, hDigit] using hLess
  · have hLarge : ∀ n, digitValue? c = some n → 10 ≤ n := by
      intro n hValue
      rw [digitValue?, if_neg hDigit] at hValue
      split at hValue
      · have := Option.some.inj hValue
        omega
      · split at hValue
        · have := Option.some.inj hValue
          omega
        · contradiction
    rcases hValue : digitValue? c with _ | n
    · simp [hDigit]
    · simpa [hDigit] using hLarge n hValue

theorem isBlank_of_isDigit
    {c : Char}
    (hDigit : c.isDigit = true) :
    isBlank c = false := by
  have hRange := Char.isDigit_iff_toNat.mp hDigit
  have hZero : '0'.toNat = 48 := rfl
  have hNine : '9'.toNat = 57 := rfl
  have hLess : 48 ≤ c.toNat ∧ c.toNat ≤ 57 := by omega
  simp [isBlank]
  omega

/- Decimal digits have the value that they denote. -/
theorem digitsValue_eq
    {digits : List Char}
    (hDigits : ∀ c ∈ digits, c.isDigit = true) :
    digitsValue 10 digits = Nat.ofDigitChars 10 digits 0 := by
  have hValue :
      ∀ start,
        digits.foldl
            (fun value c =>
              value * 10 + (digitValue? c).getD 0) start =
          Nat.ofDigitChars 10 digits start := by
    induction digits with
    | nil => exact fun _ => rfl
    | cons c digits ih =>
        intro start
        have hDigit :=
          digitValue?_of_isDigit (hDigits c List.mem_cons_self)
        rw [List.foldl_cons, hDigit, ih fun other hOther =>
          hDigits other (List.mem_cons_of_mem _ hOther),
          Nat.mul_comm]
        rfl
  exact hValue 0

------------------------------------------------------------
-- Numerals
------------------------------------------------------------

/- A row of decimal digits denotes a number. -/
structure Numeral (text : List Char) (n : Nat) : Prop where
  present : text ≠ []
  digits : ∀ c ∈ text, c.isDigit = true
  value : Nat.ofDigitChars 10 text 0 = n

theorem natural?_eq_some_iff
    (text : List Char)
    (n : Nat) :
    natural? 10 text = some n ↔ Numeral text n := by
  have hRow :
      (!text.isEmpty && text.all (isDigitOf 10)) = true ↔
        text ≠ [] ∧ ∀ c ∈ text, c.isDigit = true := by
    simp [isDigitOf_ten_iff]
  rw [natural?]
  constructor
  · intro hNumber
    split at hNumber
    · rename_i hText
      rcases hRow.mp hText with ⟨hSome, hDigits⟩
      rw [digitsValue_eq hDigits] at hNumber
      exact ⟨hSome, hDigits, Option.some.inj hNumber⟩
    · contradiction
  · rintro ⟨hSome, hDigits, hValue⟩
    rw [if_pos (hRow.mpr ⟨hSome, hDigits⟩),
      digitsValue_eq hDigits, hValue]

/- A number is denoted by its decimal digits. -/
theorem numeral_toDigits
    (n : Nat) :
    Numeral (Nat.toDigits 10 n) n where
  present := Nat.toDigits_ne_nil
  digits := fun _ hDigit =>
    Nat.isDigit_of_mem_toDigits (by decide) (by decide) hDigit
  value := Nat.ofDigitChars_toDigits (by decide) (by decide)

theorem numeral_toString
    (n : Nat) :
    Numeral (toString n).toList n := by
  rw [Nat.toString_eq_repr, Nat.toList_repr]
  exact numeral_toDigits n

theorem digitsValue_toDigits
    (n : Nat) :
    digitsValue 10 (Nat.toDigits 10 n) = n := by
  have hNumeral := numeral_toDigits n
  rw [digitsValue_eq hNumeral.digits, hNumeral.value]

------------------------------------------------------------
-- Literals
------------------------------------------------------------

/- A literal is a numeral that may have one plus sign in front. -/
inductive Literal : List Char → Nat → Prop
| plain
    {text : List Char}
    {n : Nat}
    (hNumeral : Numeral text n) : Literal text n
| plus
    {text : List Char}
    {n : Nat}
    (hNumeral : Numeral text n) : Literal ('+' :: text) n

theorem dropPlus_of_isDigit
    {digits : List Char}
    (hDigits : ∀ c ∈ digits, c.isDigit = true) :
    dropPlus digits = digits := by
  cases digits with
  | nil => rfl
  | cons c rest =>
      have hPlus : c ≠ '+' := by
        rintro rfl
        exact Bool.false_ne_true (hDigits '+' List.mem_cons_self)
      simp [dropPlus, hPlus]

theorem literal_iff
    (text : List Char)
    (n : Nat) :
    Literal text n ↔ Numeral (dropPlus text) n := by
  constructor
  · rintro (hNumeral | hNumeral)
    · rwa [dropPlus_of_isDigit hNumeral.digits]
    · exact hNumeral
  · intro hNumeral
    unfold dropPlus at hNumeral
    split at hNumeral
    · exact .plus hNumeral
    · exact .plain hNumeral

/- A literal is read when its number is below the bound. -/
theorem below?_eq_some_iff
    (bound : Nat)
    (text : List Char)
    (n : Nat) :
    below? bound text = some n ↔ Literal text n ∧ n < bound := by
  rw [below?, Option.filter_eq_some_iff, natural?_eq_some_iff,
    literal_iff, decide_eq_true_iff]

/- What is read of a bounded type is the number of a literal. -/
theorem map_below?_eq_some_iff
    {α : Type}
    {bound : Nat}
    {ofNat : Nat → α}
    {toNat : α → Nat}
    (hLess : ∀ a, toNat a < bound)
    (hBack : ∀ a, ofNat (toNat a) = a)
    (hThere : ∀ n < bound, toNat (ofNat n) = n)
    (text : List Char)
    (a : α) :
    (below? bound text).map ofNat = some a ↔
      Literal text (toNat a) := by
  rw [Option.map_eq_some_iff]
  simp only [below?_eq_some_iff]
  constructor
  · rintro ⟨n, ⟨hText, hFits⟩, rfl⟩
    rwa [hThere n hFits]
  · intro hText
    exact ⟨toNat a, ⟨hText, hLess a⟩, hBack a⟩

theorem uint32?_eq_some_iff
    (text : List Char)
    (n : UInt32) :
    uint32? text = some n ↔ Literal text n.toNat :=
  map_below?_eq_some_iff UInt32.toNat_lt
    (fun _ => UInt32.ofNat_toNat)
    (fun _ hFits => UInt32.toNat_ofNat_of_lt' hFits) text n

theorem uint64?_eq_some_iff
    (text : List Char)
    (n : UInt64) :
    uint64? text = some n ↔ Literal text n.toNat :=
  map_below?_eq_some_iff UInt64.toNat_lt
    (fun _ => UInt64.ofNat_toNat)
    (fun _ hFits => UInt64.toNat_ofNat_of_lt' hFits) text n

/- A row of digits is a literal without a plus sign. -/
theorem uint32?_digits
    {digits : List Char}
    (hSome : digits ≠ [])
    (hDigits : ∀ c ∈ digits, c.isDigit = true)
    (n : UInt32) :
    uint32? digits = some n ↔ digitsValue 10 digits = n.toNat := by
  rw [uint32?_eq_some_iff, literal_iff, dropPlus_of_isDigit hDigits,
    digitsValue_eq hDigits]
  constructor
  · exact Numeral.value
  · exact fun hValue => ⟨hSome, hDigits, hValue⟩

------------------------------------------------------------
-- Signed Literals
------------------------------------------------------------

/- A signed literal may have a minus sign in front instead. -/
inductive Signed : List Char → Int → Prop
| natural
    {text : List Char}
    {n : Nat}
    (hLiteral : Literal text n) : Signed text n
| negative
    {text : List Char}
    {n : Nat}
    (hNumeral : Numeral text n) : Signed ('-' :: text) (-n)

/- A literal has no dash. -/
theorem Literal.dash_not_mem
    {text : List Char}
    {n : Nat}
    (hText : Literal text n) :
    '-' ∉ text := by
  have hNumeral :
      ∀ {text n}, Numeral text n → '-' ∉ text := by
    intro text n hText hDash
    exact Bool.false_ne_true (hText.digits '-' hDash)
  rcases hText with hText | hText
  · exact hNumeral hText
  · simpa using hNumeral hText

theorem integer?_minus
    (digits : List Char) :
    integer? ('-' :: digits) =
      (natural? 10 digits).map fun n : Nat => -(n : Int) := by
  rw [integer?]
  cases natural? 10 digits <;> rfl

theorem integer?_of_not_minus
    {text : List Char}
    (hText : ∀ digits, text ≠ '-' :: digits) :
    integer? text = (natural? 10 (dropPlus text)).map Nat.cast := by
  unfold integer?
  split
  · exact absurd rfl (hText _)
  · cases natural? 10 (dropPlus text) <;> rfl

theorem integer?_eq_some_iff
    (text : List Char)
    (n : Int) :
    integer? text = some n ↔ Signed text n := by
  constructor
  · intro hNumber
    by_cases hMinus : ∃ digits, text = '-' :: digits
    · rcases hMinus with ⟨digits, rfl⟩
      rw [integer?_minus, Option.map_eq_some_iff] at hNumber
      rcases hNumber with ⟨m, hRead, rfl⟩
      exact .negative ((natural?_eq_some_iff _ _).mp hRead)
    · rw [integer?_of_not_minus (not_exists.mp hMinus),
        Option.map_eq_some_iff] at hNumber
      rcases hNumber with ⟨m, hRead, rfl⟩
      exact .natural
        ((literal_iff _ _).mpr ((natural?_eq_some_iff _ _).mp hRead))
  · rintro (hLiteral | hNumeral)
    · have hText : ∀ digits, text ≠ '-' :: digits := by
        rintro digits rfl
        exact hLiteral.dash_not_mem List.mem_cons_self
      rw [literal_iff, ← natural?_eq_some_iff] at hLiteral
      rw [integer?_of_not_minus hText, hLiteral, Option.map_some]
    · rw [← natural?_eq_some_iff] at hNumeral
      rw [integer?_minus, hNumeral, Option.map_some]

/- A signed literal denotes one number only. -/
theorem Signed.unique
    {text : List Char}
    {n m : Int}
    (hText : Signed text n)
    (hOther : Signed text m) :
    n = m := by
  rw [← integer?_eq_some_iff] at hText hOther
  exact Option.some.inj (hText.symm.trans hOther)

theorem signed_toString
    (n : Int) :
    Signed (toString n).toList n := by
  cases n with
  | ofNat m => exact .natural (.plain (numeral_toString m))
  | negSucc m =>
      have hText :
          (toString (Int.negSucc m)).toList =
            '-' :: (toString (m + 1)).toList :=
        String.toList_append
      rw [hText]
      exact .negative (numeral_toString (m + 1))

theorem int64?_eq_some_iff
    (text : List Char)
    (n : Int64) :
    int64? text = some n ↔ Signed text n.toInt := by
  rw [← integer?_eq_some_iff, int64?]
  constructor
  · intro hNumber
    split at hNumber
    · contradiction
    · rename_i m hRead
      split at hNumber
      · rename_i hRange
        rw [hRead, ← Option.some.inj hNumber,
          Int64.toInt_ofInt_of_le (by omega) (by omega)]
      · contradiction
  · intro hRead
    have hLeast := n.le_toInt
    have hGreatest := n.toInt_lt
    rw [hRead]
    simp only
    rw [if_pos (by omega), Int64.ofInt_toInt]

end Text

end CoreTally
