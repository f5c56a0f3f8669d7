import CoreTally.Json.Record
import CoreTally.Proofs.Numerals

/-
  Typed values are read from the JSON values that stand for
  them: integers of each width, lists of such values, and
  records, the names of whose fields are different.

  Key theorems include:
    * `Json.Number.integer?_ofInt`
    * `Json.list?_map`
    * `Json.allFields?_record`
-/

namespace CoreTally

namespace Json

------------------------------------------------------------
-- Integers
------------------------------------------------------------

/- An integer of at most 64 bits is the one that is written. -/
theorem Number.integer?_ofInt
    {n : Int}
    (hLeast : -9223372036854775808 ≤ n)
    (hGreatest : n ≤ 18446744073709551615) :
    (ofInt n).integer? = some n := by
  have hDigits := Text.digitsValue_toDigits n.natAbs
  by_cases hNegative : n < 0
  · simp only [ofInt, integer?, hDigits, hNegative,
      decide_true, if_true]
    rw [if_pos (by omega)]
    congr 1
    omega
  · simp only [ofInt, integer?, hDigits, hNegative,
      decide_false, Bool.false_eq_true, if_false]
    rw [if_pos (by omega)]
    congr 1
    omega

theorem between?_int
    {least greatest n : Int}
    (hBounds : -9223372036854775808 ≤ least)
    (hBounds' : greatest ≤ 18446744073709551615)
    (hLeast : least ≤ n)
    (hGreatest : n ≤ greatest) :
    (Json.int n).between? least greatest = some n := by
  have hNumber : (Json.int n).integer? = some n :=
    Number.integer?_ofInt (Int.le_trans hBounds hLeast)
      (Int.le_trans hGreatest hBounds')
  rw [between?, hNumber, Option.filter_some,
    if_pos (by simp [hLeast, hGreatest])]

theorem uint32?_nat
    (n : UInt32) :
    (Json.nat n.toNat).uint32? = some n := by
  have hRange := n.toNat_lt
  rw [uint32?, Json.nat,
    between?_int (by decide) (by decide) (by omega) (by omega)]
  simp

theorem uint64?_nat
    (n : UInt64) :
    (Json.nat n.toNat).uint64? = some n := by
  have hRange := n.toNat_lt
  rw [uint64?, Json.nat,
    between?_int (by decide) (by decide) (by omega) (by omega)]
  simp

theorem int32?_int
    (n : Int32) :
    (Json.int n.toInt).int32? = some n := by
  have hLeast := n.le_toInt
  have hGreatest := n.toInt_lt
  rw [int32?,
    between?_int (by decide) (by decide) (by omega) (by omega)]
  simp

theorem int64?_int
    (n : Int64) :
    (Json.int n.toInt).int64? = some n := by
  have hLeast := n.le_toInt
  have hGreatest := n.toInt_lt
  rw [int64?,
    between?_int (by decide) (by decide) (by omega) (by omega)]
  simp

------------------------------------------------------------
-- Lists
------------------------------------------------------------

/- A list is mapped if each of its items is. -/
theorem mapM_map
    {α β γ : Type}
    {before : α → β}
    {step? : β → Option γ}
    {after : α → γ}
    {items : List α}
    (hItems :
      ∀ item ∈ items, step? (before item) = some (after item)) :
    (items.map before).mapM step? = some (items.map after) := by
  induction items with
  | nil => rfl
  | cons item items ih =>
      have hRest := ih fun other hOther =>
        hItems other (by simp [hOther])
      rw [List.map_cons, List.mapM_cons, hItems item (by simp),
        hRest]
      rfl

/- A list is read if each of its items is. -/
theorem list?_map
    {α : Type}
    {form : α → Json}
    {item? : Json → Option α}
    {items : List α}
    (hItems : ∀ item ∈ items, item? (form item) = some item) :
    list? item? (.array (items.map form)) = some items := by
  have hAll := mapM_map hItems
  rwa [List.map_id'] at hAll

------------------------------------------------------------
-- Records
------------------------------------------------------------

theorem valuesOf_of_notMem
    {name : String}
    {members : List (String × Json)}
    (hName : name ∉ members.map Prod.fst) :
    Fields.valuesOf (some name)
        (members.map fun (name, value) => (some name, value)) =
      [] := by
  rw [Fields.valuesOf, List.filterMap_eq_nil_iff]
  intro entry hEntry
  rcases List.mem_map.mp hEntry with ⟨member, hMember, rfl⟩
  apply if_neg
  intro hSame
  apply hName
  rw [← Option.some.inj hSame]
  exact List.mem_map_of_mem hMember

/- A name that occurs once has one value. -/
theorem valuesOf_of_mem
    {members : List (String × Json)}
    (hNames : (members.map Prod.fst).Nodup)
    {member : String × Json}
    (hMember : member ∈ members) :
    Fields.valuesOf (some member.1)
        (members.map fun (name, value) => (some name, value)) =
      [member.2] := by
  induction members with
  | nil => contradiction
  | cons head members ih =>
      rcases List.nodup_cons.mp hNames with ⟨hHead, hRest⟩
      rw [List.map_cons, Fields.valuesOf, List.filterMap_cons,
        ← Fields.valuesOf]
      rcases List.mem_cons.mp hMember with rfl | hLater
      · rw [valuesOf_of_notMem hHead]
        simp
      · have hOther : head.1 ≠ member.1 := by
          intro hSame
          rw [hSame] at hHead
          exact hHead (List.mem_map_of_mem hLater)
        rw [ih hRest hLater]
        simp [hOther]

/- The fields of a record are read, if their names differ. -/
theorem allFields?_record
    {members : List (String × Json)}
    (hNames : (members.map Prod.fst).Nodup) :
    (Json.record members).allFields? (members.map Prod.fst) =
      some (members.map Prod.snd) := by
  have hFields :
      (Json.record members).fields? (members.map Prod.fst) =
        some (members.map fun member => some member.2) := by
    rw [Json.record, fields?, if_pos (by simp)]
    apply mapM_map
    intro member hMember
    rw [Fields.unique?, valuesOf_of_mem hNames hMember]
  have hValues :
      (members.map fun member => some member.2).mapM id =
        some (members.map Prod.snd) :=
    mapM_map fun _ _ => rfl
  rw [allFields?, hFields]
  exact hValues

end Json

end CoreTally
