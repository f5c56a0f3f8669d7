import CoreTally.Error
import CoreTally.Machine
import CoreTally.Text.Numeral

/-
  This file defines how an event set is tied to execution units
  and finds the unit that it reports from.

  Key definitions include:
    * `UnitBinding`
    * `StatLine.processor?`
    * `Resolver`
    * `Resolver.resolve`
-/

namespace CoreTally

/-
  An event set counts on one processor, for another thread that
  may migrate, or for the calling thread.
-/
inductive UnitBinding where
| cpu (unit : UnitId)
| thread (tid : UInt32)
| caller
deriving DecidableEq, Repr

------------------------------------------------------------
-- Stat Lines
------------------------------------------------------------

namespace StatLine

/- The field with the processor a task last ran on. -/
def processorField : Nat := 39

/- The first field after the command name. -/
def firstFieldAfterName : Nat := 3

/-
  The processor in the first line of a task's stat file. The
  command name may hold blanks and parentheses, so the fields
  are counted from the last closing parenthesis on.
-/
def processor? (stat : String) : Option UInt32 :=
  match Text.lines stat.toList with
  | [] => none
  | line :: _ =>
      match Text.afterLast? ')' line with
      | none => none
      | some fields =>
          match (Text.words fields)[processorField - firstFieldAfterName]? with
          | none => none
          | some field => Text.uint32? field

end StatLine

------------------------------------------------------------
-- Resolution
------------------------------------------------------------

/- Finds units, reading the state of tasks below a directory. -/
structure Resolver where
  procfsRoot : String := "/proc"
deriving DecidableEq, Repr

namespace Resolver

/- The file with the state of a task. -/
def statPath (resolver : Resolver) (tid : UInt32) : String :=
  Path.join (Path.join resolver.procfsRoot (toString tid)) "stat"

/- The processor a task last ran on. -/
def cpuOfTask
    (resolver : Resolver)
    (machine : Machine)
    (tid : UInt32) : Except Error UnitId :=
  let path := resolver.statPath tid
  match machine.files.readText path with
  | .error cause => .error (.argument (.unreadableStat path cause))
  | .ok stat =>
      match StatLine.processor? stat with
      | none => .error (.argument (.malformedStat path))
      | some unit => .ok unit

/- The processor of the calling thread cannot be told. -/
def noCallerCpu : BackendError :=
  ⟨Status.system, "sched_getcpu failed"⟩

/- The unit that a binding currently reports from. -/
def resolve
    (resolver : Resolver)
    (machine : Machine) :
    UnitBinding → Except Error UnitId
| .cpu unit => .ok unit
| .thread tid => resolver.cpuOfTask machine tid
| .caller =>
    match machine.currentCpu? with
    | none => .error (.backend noCallerCpu)
    | some unit => .ok unit

end Resolver

end CoreTally
