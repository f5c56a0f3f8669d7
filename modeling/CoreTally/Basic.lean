/-
  This file names the numbers that identify execution units,
  event sets and events. A topology component is identified by
  its position, a natural number.

  Key definitions include:
    * `UnitId`
    * `EventSet`
    * `EventCode`
    * `EventCode.text`
    * `positionText`
-/

namespace CoreTally

/-
  An execution unit, by its hardware thread number. Readings
  and `thread` components of a topology meet in this number.
-/
abbrev UnitId :=
  UInt32

/- The handle of an event set inside its counter source. -/
abbrev EventSet :=
  Int32

/-
  The numeric code of an event inside its counter source. Only
  the name of an event is stable across sources.
-/
abbrev EventCode :=
  UInt32

/- A code in lower-case hexadecimal. -/
def EventCode.text (code : EventCode) : String :=
  "0x" ++ String.ofList (Nat.toDigits 16 code.toNat)

/- The position of a topology component as messages show it. -/
def positionText (node : Nat) : String :=
  s!"NodeId({node})"

end CoreTally
