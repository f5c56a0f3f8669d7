import CoreTally.Proofs.Json.RoundTrip
import CoreTally.Proofs.Json.Typed
import CoreTally.Topology.Attribute
import Mathlib.Algebra.GroupWithZero.Nat

/-
  Values of attributes and their JSON texts. A text does not tell
  the type of an integer, so that an unsigned integer is read as a
  signed one where it fits. No observer sees the difference, and
  values of other types come back as they were.

  Key definitions include:
    * `AttributeValue.settled`
    * `AttributeValue.read?`

  Key theorems include:
    * `AttributeValue.ofJson?_toJson`
    * `AttributeValue.display_settled`
    * `AttributeValue.written_values_are_read`
-/

namespace CoreTally

namespace AttributeValue

------------------------------------------------------------
-- Integers
------------------------------------------------------------

/- An integer is read as a signed one if it is in range. -/
theorem ofJson?_int
    (n : Int64) :
    ofJson? (.int n.toInt) = some (.int n) := by
  rw [Json.int, ofJson?, ofNumber?]
  have hInt : Json.int64? (.number (.ofInt n.toInt)) = some n :=
    Json.int64?_int n
  rw [hInt]

/- It is read as an unsigned one if it is larger. -/
theorem ofJson?_large
    {n : UInt64}
    (hLarge : 2 ^ 63 ≤ n.toNat) :
    ofJson? (.int n.toNat) = some (.uint n) := by
  have hRange := n.toNat_lt
  have hNumber : (Json.Number.ofInt n.toNat).integer? = some ↑n.toNat :=
    Json.Number.integer?_ofInt (by omega) (by omega)
  have hSigned :
      Json.int64? (.number (.ofInt n.toNat)) = none := by
    rw [Json.int64?, Json.between?, Json.integer?, hNumber,
      Option.filter_some, if_neg]
    · rfl
    · simp
      omega
  have hUnsigned :
      Json.uint64? (.number (.ofInt n.toNat)) = some n :=
    Json.uint64?_nat n
  rw [Json.int, ofJson?, ofNumber?, hSigned, hUnsigned]

/- A small unsigned integer is a signed one, too. -/
theorem toInt_toInt64
    {n : UInt64}
    (hSmall : n.toNat < 2 ^ 63) :
    n.toInt64.toInt = n.toNat := by
  have hBits : n.toInt64.toInt = n.toBitVec.toInt := rfl
  have hNat : n.toBitVec.toNat = n.toNat := rfl
  rw [hBits, BitVec.toInt_eq_toNat_cond, hNat, if_pos (by omega)]

------------------------------------------------------------
-- Settled Values
------------------------------------------------------------

/- A value with the type that its text is read with. -/
def settled : AttributeValue → AttributeValue
| .uint n =>
    if n.toNat < 2 ^ 63 then .int n.toInt64 else .uint n
| value => value

/- Only small unsigned integers are read with another type. -/
theorem settled_cases
    (value : AttributeValue) :
    value.settled = value ∨
      ∃ n : UInt64,
        n.toNat < 2 ^ 63 ∧
          value = .uint n ∧ value.settled = .int n.toInt64 := by
  cases value with
  | uint n =>
      by_cases hSmall : n.toNat < 2 ^ 63
      · exact .inr ⟨n, hSmall, rfl, if_pos hSmall⟩
      · exact .inl (if_neg hSmall)
  | int n => exact .inl rfl
  | float number => exact .inl rfl
  | text content => exact .inl rfl
  | bool flag => exact .inl rfl

/- No observer tells a value from its settled form. -/
theorem display_settled
    (value : AttributeValue) :
    value.settled.display = value.display := by
  rcases value.settled_cases with
    hSame | ⟨n, hSmall, rfl, hSigned⟩
  · rw [hSame]
  · rw [hSigned, display, display, toInt_toInt64 hSmall]
    rfl

theorem asUnsigned?_settled
    (value : AttributeValue) :
    value.settled.asUnsigned? = value.asUnsigned? := by
  rcases value.settled_cases with
    hSame | ⟨n, hSmall, rfl, hSigned⟩
  · rw [hSame]
  · have hPositive : 0 ≤ n.toInt64 := by
      rw [Int64.le_iff_toInt_le, toInt_toInt64 hSmall]
      simp
    rw [hSigned, asUnsigned?, asUnsigned?, if_pos hPositive,
      UInt64.toUInt64_toInt64]

theorem asText?_settled
    (value : AttributeValue) :
    value.settled.asText? = value.asText? := by
  rcases value.settled_cases with
    hSame | ⟨n, _, rfl, hSigned⟩
  · rw [hSame]
  · rw [hSigned]
    rfl

theorem settled_of_large
    {value : AttributeValue}
    (hLarge : ∀ n, value = .uint n → 2 ^ 63 ≤ n.toNat) :
    value.settled = value := by
  rcases value.settled_cases with hSame | ⟨n, hSmall, hValue, _⟩
  · exact hSame
  · exact absurd hSmall (Nat.not_lt.mpr (hLarge n hValue))

/- The JSON form of a value is read as its settled form. -/
theorem ofJson?_toJson
    {value : AttributeValue}
    (hExact : ∀ number, value ≠ .float number) :
    ofJson? value.toJson = some value.settled := by
  cases value with
  | int n => exact ofJson?_int n
  | uint n =>
      rw [settled]
      split
      · rename_i hSmall
        rw [toJson, ← toInt_toInt64 hSmall]
        exact ofJson?_int _
      · rename_i hLarge
        exact ofJson?_large (Nat.le_of_not_lt hLarge)
  | float number => exact absurd rfl (hExact number)
  | text content => rfl
  | bool flag => rfl

------------------------------------------------------------
-- Texts
------------------------------------------------------------

/- The value that a JSON text stands for. -/
def read? (text : String) : Option AttributeValue :=
  (Json.parse? text).bind ofJson?

/- Values stand in one line, with indentation or without. -/
theorem compact_toJson
    (value : AttributeValue) :
    value.toJson.compact = value.toJson.pretty := by
  have hNumber :
      ∀ number,
        Json.compact (.number number) =
          Json.pretty (.number number) := by
    intro number
    rw [Json.compact, Json.pretty, Json.indented]
  cases value with
  | int n => exact hNumber _
  | uint n => exact hNumber _
  | float number =>
      rw [toJson, floatJson]
      split
      · rw [Json.compact, Json.pretty, Json.indented]
      · exact hNumber _
  | text content =>
      rw [toJson, Json.str, Json.compact, Json.pretty, Json.indented]
  | bool flag =>
      cases flag <;>
        rw [toJson, Json.compact, Json.pretty, Json.indented]

/- The JSON form of a value can be told from its text. -/
theorem plain_toJson
    {value : AttributeValue}
    (hExact : ∀ number, value ≠ .float number) :
    Json.Plain value.toJson := by
  cases value with
  | int n => exact .int _
  | uint n => exact .int _
  | float number => exact absurd rfl (hExact number)
  | text content => exact .str content
  | bool flag => exact .bool flag

theorem read?_pretty
    {value : AttributeValue}
    (hExact : ∀ number, value ≠ .float number) :
    read? value.toJson.pretty = some value.settled := by
  rw [read?, Json.parse?_pretty (plain_toJson hExact)]
  exact ofJson?_toJson hExact

/-
  A value that is no floating-point one is read from its JSON text,
  printed either way, as a value that is printed alike and is the
  same unsigned integer or text, if it is one. It has the same type,
  too, except that an unsigned integer in the range of signed ones
  comes back as that signed integer.
-/
theorem written_values_are_read
    {value : AttributeValue}
    (hExact : ∀ number, value ≠ .float number) :
    ∃ back,
      read? value.toJson.pretty = some back ∧
        read? value.toJson.compact = some back ∧
        back.display = value.display ∧
        back.asUnsigned? = value.asUnsigned? ∧
        back.asText? = value.asText? ∧
        (∀ n, value = .uint n → n.toNat < 2 ^ 63 →
          ∃ m : Int64, m.toInt = n.toNat ∧ back = .int m) ∧
        ((∀ n, value = .uint n → 2 ^ 63 ≤ n.toNat) →
          back = value) := by
  have hRead := read?_pretty hExact
  refine ⟨value.settled, hRead, ?_, value.display_settled,
    value.asUnsigned?_settled, value.asText?_settled, ?_,
    settled_of_large⟩
  · rw [compact_toJson, hRead]
  · rintro n rfl hSmall
    exact ⟨n.toInt64, toInt_toInt64 hSmall, if_pos hSmall⟩

/- The largest signed integer changes its type when it is unsigned. -/
theorem written_values_are_read_at_boundary :
    let value : AttributeValue := .uint 9223372036854775807
    (∀ number, value ≠ .float number) ∧
      ∃ back,
        read? value.toJson.pretty = some back ∧
          back.display = "9223372036854775807" ∧
          back.asUnsigned? = some 9223372036854775807 ∧
          ∃ m : Int64,
            m.toInt = 9223372036854775807 ∧ back = .int m := by
  intro value
  have hExact : ∀ number, value ≠ .float number :=
    fun _ hFloat => nomatch hFloat
  rcases written_values_are_read hExact with
    ⟨back, hRead, _, hDisplay, hUnsigned, _, hSigned, _⟩
  exact ⟨hExact, back, hRead, hDisplay, hUnsigned,
    hSigned _ rfl (by decide)⟩

end AttributeValue

end CoreTally
