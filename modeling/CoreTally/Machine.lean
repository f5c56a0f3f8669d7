import CoreTally.Basic
import CoreTally.Files
import CoreTally.Instant

/-
  This file gathers what is asked of the machine underneath:
  its clock, the processor of the calling thread and its files.

  Key definitions include:
    * `Machine`
    * `Machine.currentCpu?`
-/

namespace CoreTally

/-
  A machine. A negative number for the processor of the calling
  thread means that it cannot be told.
-/
structure Machine where
  clock : Clock := .reading 0 0
  callerCpu : Int32 := 0
  files : Files := {}
deriving Inhabited

/- The processor of the calling thread. -/
def Machine.currentCpu? (machine : Machine) : Option UnitId :=
  if machine.callerCpu < 0 then
    none
  else
    some machine.callerCpu.toUInt32

end CoreTally
