import CoreTally.Proofs.Numerals
import CoreTally.Proofs.Words
import CoreTally.Topology.Sysfs
import Mathlib.Data.List.Basic
import Mathlib.Tactic.MkIffOfInductiveProp

/-
  What a file with one value says. Blanks around the value do not
  count. A number is a literal, which may be negative for a number
  that is read as a signed one. A size is a number of bytes, or a
  number with the letter of a unit behind it. Every reader reads
  what a file says, as long as it is in the range of its type.

  Key definitions include:
    * `Sysfs.Says`
    * `Sysfs.SaysNumber`
    * `Sysfs.SaysInteger`
    * `Sysfs.SizeLiteral`
    * `Sysfs.SaysSize`

  Key theorems include:
    * `Sysfs.readUnsigned?_eq_some_iff`
    * `Sysfs.readSigned?_eq_some_iff`
    * `Sysfs.sizeOf?_eq_some_iff`
    * `Sysfs.readSize?_eq_some_iff`
-/

namespace CoreTally

namespace Sysfs

------------------------------------------------------------
-- Values
------------------------------------------------------------

/- A file says what stands in its text between blanks. -/
def Says
    (files : Files)
    (path : String)
    (value : List Char) : Prop :=
  ∃ text,
    files.readText path = .ok text ∧ Text.Trimmed text.toList value

/- A file says a number, written without a minus sign. -/
def SaysNumber
    (files : Files)
    (path : String)
    (n : Nat) : Prop :=
  ∃ value, Says files path value ∧ Text.Literal value n

/- A file says a number that may be negative. -/
def SaysInteger
    (files : Files)
    (path : String)
    (n : Int) : Prop :=
  ∃ value, Says files path value ∧ Text.Signed value n

variable {files : Files}
variable {path : String}

theorem says_iff
    (value : List Char) :
    Says files path value ↔ readTrimmed? files path = some value := by
  rw [Says, readTrimmed?]
  rcases files.readText path with cause | text
  · simp
  · simp [Text.trimmed_iff]

/- A file that can be read says one thing. -/
theorem Says.unique
    {value other : List Char}
    (hValue : Says files path value)
    (hOther : Says files path other) :
    value = other := by
  rw [says_iff] at hValue hOther
  exact Option.some.inj (hValue.symm.trans hOther)

theorem readUnsigned?_eq_some_iff
    (n : UInt64) :
    readUnsigned? files path = some n ↔
      SaysNumber files path n.toNat := by
  simp only [readUnsigned?, SaysNumber, says_iff,
    Option.bind_eq_some_iff, Text.uint64?_eq_some_iff]

theorem readSigned?_eq_some_iff
    (n : Int64) :
    readSigned? files path = some n ↔
      SaysInteger files path n.toInt := by
  simp only [readSigned?, SaysInteger, says_iff,
    Option.bind_eq_some_iff, Text.int64?_eq_some_iff]

theorem idOf?_eq_some_iff
    (value : Int64)
    (id : UInt32) :
    idOf? value = some id ↔ value.toInt = id.toNat := by
  have hRange := id.toNat_lt
  rw [idOf?]
  constructor
  · intro hNumber
    split at hNumber
    · rename_i hFits
      have hLess : value.toInt.toNat < UInt32.size := by omega
      rw [← Option.some.inj hNumber,
        UInt32.toNat_ofNat_of_lt' hLess]
      omega
    · contradiction
  · intro hNumber
    have hSize : UInt32.size = 2 ^ 32 := rfl
    rw [if_pos (by omega), hNumber]
    simp

theorem levelOf?_eq_some_iff
    (value : UInt64)
    (level : UInt32) :
    levelOf? value = some level ↔ value.toNat = level.toNat := by
  have hRange := level.toNat_lt
  have hSize : UInt32.size = 2 ^ 32 := rfl
  rw [levelOf?]
  constructor
  · intro hLevel
    split at hLevel
    · rename_i hFits
      rw [← Option.some.inj hLevel, UInt64.toNat_toUInt32]
      exact (Nat.mod_eq_of_lt (by omega)).symm
    · contradiction
  · intro hLevel
    rw [if_pos (by omega), Option.some.injEq]
    apply UInt32.toNat_inj.mp
    rw [UInt64.toNat_toUInt32, hLevel]
    exact Nat.mod_eq_of_lt hRange

/- A number of 32 bits is read as a signed one of 64 bits. -/
theorem readId?_eq_some_iff
    (id : UInt32) :
    (readSigned? files path).bind idOf? = some id ↔
      SaysInteger files path id.toNat := by
  simp only [Option.bind_eq_some_iff, readSigned?_eq_some_iff,
    idOf?_eq_some_iff]
  constructor
  · rintro ⟨value, hSays, hValue⟩
    rwa [hValue] at hSays
  · intro hSays
    have hRange := id.toNat_lt
    have hValue : (Int64.ofNat id.toNat).toInt = id.toNat :=
      Int64.toInt_ofNat_of_lt (by omega)
    exact ⟨.ofNat id.toNat, by rwa [hValue], hValue⟩

/- A number of 32 bits is read as one of 64 bits. -/
theorem readLevel?_eq_some_iff
    (level : UInt32) :
    (readUnsigned? files path).bind levelOf? = some level ↔
      SaysNumber files path level.toNat := by
  simp only [Option.bind_eq_some_iff, readUnsigned?_eq_some_iff,
    levelOf?_eq_some_iff]
  constructor
  · rintro ⟨value, hSays, hValue⟩
    rwa [hValue] at hSays
  · intro hSays
    exact ⟨level.toUInt64, by rwa [UInt32.toNat_toUInt64],
      UInt32.toNat_toUInt64 level⟩

------------------------------------------------------------
-- Sizes
------------------------------------------------------------

/- A letter, small or large, and the number of bytes of its unit. -/
inductive IsUnit : Char → Nat → Prop
| kilobyte
    {letter : Char}
    (hLetter : letter = 'K' ∨ letter = 'k') :
    IsUnit letter 1024
| megabyte
    {letter : Char}
    (hLetter : letter = 'M' ∨ letter = 'm') :
    IsUnit letter (1024 * 1024)
| gigabyte
    {letter : Char}
    (hLetter : letter = 'G' ∨ letter = 'g') :
    IsUnit letter (1024 * 1024 * 1024)

/- A size is a literal, or one with a unit behind it. -/
@[mk_iff] inductive SizeLiteral : List Char → Nat → Prop
| bytes
    {text : List Char}
    {n : Nat}
    (hText : Text.Literal text n) :
    SizeLiteral text n
| units
    {text literal : List Char}
    {letter : Char}
    {n factor : Nat}
    (hUnit : IsUnit letter factor)
    (hText : Text.Trimmed text literal)
    (hLiteral : Text.Literal literal n) :
    SizeLiteral (text ++ [letter]) (n * factor)

/- A file says a size in bytes. -/
def SaysSize
    (files : Files)
    (path : String)
    (n : Nat) : Prop :=
  ∃ value, Says files path value ∧ SizeLiteral value n

theorem unitFactor?_eq_some_iff
    (letter : Char)
    (factor : Nat) :
    unitFactor? letter = some factor ↔ IsUnit letter factor := by
  rw [unitFactor?]
  constructor
  · intro hFactor
    split at hFactor
    · rename_i hLetter
      exact Option.some.inj hFactor ▸ .kilobyte hLetter
    split at hFactor
    · rename_i hLetter
      exact Option.some.inj hFactor ▸ .megabyte hLetter
    split at hFactor
    · rename_i hLetter
      exact Option.some.inj hFactor ▸ .gigabyte hLetter
    · contradiction
  · rintro ((rfl | rfl) | (rfl | rfl) | (rfl | rfl)) <;> rfl

/- No unit is a digit, and none has no bytes. -/
theorem IsUnit.isDigit
    {letter : Char}
    {factor : Nat}
    (hUnit : IsUnit letter factor) :
    letter.isDigit = false := by
  rcases hUnit with (rfl | rfl) | (rfl | rfl) | (rfl | rfl) <;> rfl

theorem IsUnit.pos
    {letter : Char}
    {factor : Nat}
    (hUnit : IsUnit letter factor) :
    0 < factor := by
  cases hUnit <;> decide

theorem product?_eq_some_iff
    (n product : UInt64)
    (factor : Nat) :
    product? n factor = some product ↔
      n.toNat * factor = product.toNat := by
  have hRange : product.toNat < UInt64.size := product.toNat_lt
  rw [product?]
  constructor
  · intro hProduct
    split at hProduct
    · rename_i hFits
      rw [← Option.some.inj hProduct,
        UInt64.toNat_ofNat_of_lt' hFits]
    · contradiction
  · intro hProduct
    rw [if_pos (by omega), hProduct, UInt64.ofNat_toNat]

/- A literal ends in a digit. -/
theorem isDigit_of_literal_concat
    {text : List Char}
    {c : Char}
    {n : Nat}
    (hText : Text.Literal (text ++ [c]) n) :
    c.isDigit = true := by
  generalize hWhole : text ++ [c] = whole at hText
  cases hText with
  | plain hNumeral =>
      apply hNumeral.digits
      rw [← hWhole]
      exact List.mem_concat_self
  | @plus digits _ hNumeral =>
      apply hNumeral.digits
      cases text with
      | nil =>
          cases hWhole
          exact absurd rfl hNumeral.present
      | cons d text =>
          cases hWhole
          exact List.mem_concat_self

/- The last letter tells whether a size has a unit. -/
theorem sizeLiteral_concat_iff
    (text : List Char)
    (letter : Char)
    (n : Nat) :
    SizeLiteral (text ++ [letter]) n ↔
      ((∀ factor, ¬ IsUnit letter factor) ∧
          Text.Literal (text ++ [letter]) n) ∨
        ∃ factor m,
          IsUnit letter factor ∧
            Text.Literal (Text.trim text) m ∧ m * factor = n := by
  rw [sizeLiteral_iff]
  constructor
  · rintro (hText | ⟨digits, literal, last, m, factor, hUnit,
      hTrimmed, hLiteral, hSame, rfl⟩)
    · refine .inl ⟨fun factor hUnit => ?_, hText⟩
      have hDigit := isDigit_of_literal_concat hText
      rw [hUnit.isDigit] at hDigit
      contradiction
    · rcases List.append_inj' hSame rfl with ⟨rfl, hLast⟩
      cases hLast
      rw [← hTrimmed.trim_eq] at hLiteral
      exact .inr ⟨factor, m, hUnit, hLiteral, rfl⟩
  · rintro (⟨-, hText⟩ | ⟨factor, m, hUnit, hLiteral, rfl⟩)
    · exact .inl hText
    · exact .inr ⟨text, _, letter, m, factor, hUnit,
        Text.trimmed_trim text, hLiteral, rfl, rfl⟩

theorem not_sizeLiteral_nil
    (n : Nat) :
    ¬ SizeLiteral [] n := by
  rw [sizeLiteral_iff]
  rintro (hText | ⟨_, _, _, _, _, -, -, -, hNone, -⟩)
  · rw [Text.literal_iff] at hText
    exact hText.present rfl
  · simp at hNone

/- A number of units is read when its bytes are not too many. -/
theorem readUnits?_eq_some_iff
    {factor : Nat}
    (hFactor : 0 < factor)
    (text : List Char)
    (n : UInt64) :
    ((Text.uint64? text).bind fun m => product? m factor) =
        some n ↔
      ∃ m, Text.Literal text m ∧ m * factor = n.toNat := by
  simp only [Option.bind_eq_some_iff, Text.uint64?_eq_some_iff,
    product?_eq_some_iff]
  constructor
  · rintro ⟨m, hText, hProduct⟩
    exact ⟨m.toNat, hText, hProduct⟩
  · rintro ⟨m, hText, hProduct⟩
    have hLess : m < UInt64.size := by
      have hRange : n.toNat < UInt64.size := n.toNat_lt
      have hLe := Nat.le_mul_of_pos_right m hFactor
      omega
    have hValue := UInt64.toNat_ofNat_of_lt' hLess
    exact ⟨.ofNat m, by rwa [hValue], by rwa [hValue]⟩

/- A size is read when its bytes are not too many. -/
theorem sizeOf?_eq_some_iff
    (text : List Char)
    (n : UInt64) :
    sizeOf? text = some n ↔
      ∃ size, Text.Trimmed text size ∧ SizeLiteral size n.toNat := by
  simp only [Text.trimmed_iff, exists_eq_left']
  rw [sizeOf?]
  generalize Text.trim text = trimmed
  rcases trimmed.eq_nil_or_concat' with rfl | ⟨digits, letter, rfl⟩
  · exact iff_of_false nofun (not_sizeLiteral_nil _)
  · rw [sizeLiteral_concat_iff]
    simp only [List.getLast?_concat, List.dropLast_concat]
    rcases hUnit : unitFactor? letter with _ | factor
    · have hNone : ∀ factor, ¬ IsUnit letter factor := by
        intro factor hIsUnit
        rw [← unitFactor?_eq_some_iff, hUnit] at hIsUnit
        contradiction
      simp [hNone, Text.uint64?_eq_some_iff]
    · have hIsUnit := (unitFactor?_eq_some_iff _ _).mp hUnit
      have hOnly :
          ∀ other, IsUnit letter other → other = factor := by
        intro other hOther
        rw [← unitFactor?_eq_some_iff, hUnit] at hOther
        exact (Option.some.inj hOther).symm
      simp only [readUnits?_eq_some_iff hIsUnit.pos]
      constructor
      · rintro ⟨m, hText, hProduct⟩
        exact .inr ⟨factor, m, hIsUnit, hText, hProduct⟩
      · rintro (⟨hNone, -⟩ | ⟨other, m, hOther, hText, hProduct⟩)
        · exact absurd hIsUnit (hNone factor)
        · rw [hOnly other hOther] at hProduct
          exact ⟨m, hText, hProduct⟩

theorem readSize?_eq_some_iff
    (n : UInt64) :
    (readTrimmed? files path).bind sizeOf? = some n ↔
      SaysSize files path n.toNat := by
  simp only [Option.bind_eq_some_iff, ← says_iff,
    sizeOf?_eq_some_iff, SaysSize]
  constructor
  · rintro ⟨text, hSays, size, hTrimmed, hSize⟩
    rcases hSays with ⟨whole, hRead, hText⟩
    rw [hText.self.trim_eq.symm.trans hTrimmed.trim_eq] at hText
    exact ⟨size, ⟨whole, hRead, hText⟩, hSize⟩
  · rintro ⟨size, ⟨whole, hRead, hText⟩, hSize⟩
    exact ⟨size, ⟨whole, hRead, hText⟩, size, hText.self, hSize⟩

end Sysfs

end CoreTally
