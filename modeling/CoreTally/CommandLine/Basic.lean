import CoreTally.Config.Basic

/-
  This file defines what a command line asks for, the variables
  of the environment that stand in for missing arguments, and
  why arguments are refused.

  Key definitions include:
    * `CommandLine.UsageError`
    * `CommandLine.Environment`
    * `CommandLine.Command`
    * `CommandLine.Invocation`
-/

namespace CoreTally.CommandLine

------------------------------------------------------------
-- Refused Arguments
------------------------------------------------------------

/-
  Why no command is carried out. Two of the reasons only ask for
  a text to be shown.
-/
inductive UsageError where
| unknownArgument
| invalidSubcommand
| invalidValue
| valueValidation
| argumentConflict
| tooManyValues
| displayHelp
| displayVersion
deriving DecidableEq, Repr

namespace UsageError

/- The name of a reason. -/
def label : UsageError → String
| unknownArgument => "UnknownArgument"
| invalidSubcommand => "InvalidSubcommand"
| invalidValue => "InvalidValue"
| valueValidation => "ValueValidation"
| argumentConflict => "ArgumentConflict"
| tooManyValues => "TooManyValues"
| displayHelp => "DisplayHelp"
| displayVersion => "DisplayVersion"

/- The exit code of a program that stops for a reason. -/
def exitCode : UsageError → UInt32
| displayHelp | displayVersion => 0
| _ => 2

end UsageError

------------------------------------------------------------
-- Environments
------------------------------------------------------------

/-
  Variables of the environment: the configuration file, the
  debug mode, the home directory and the directory that holds
  configurations.
-/
structure Environment where
  config : Option String := none
  debug : Option String := none
  home : Option String := none
  configHome : Option String := none
deriving DecidableEq, Repr

/- The environment in which variables have the given values. -/
def Environment.ofVariables
    (value? : String → Option String) : Environment where
  config := value? "TOPOPERF_CONFIG"
  debug := value? "TOPOPERF_DEBUG"
  home := value? "HOME"
  configHome := value? "XDG_CONFIG_HOME"

------------------------------------------------------------
-- Commands
------------------------------------------------------------

/-
  Print a topology, synthetic or of the machine underneath, or
  run the simulated workload with some changes to it.
-/
inductive Command where
| topology (sysfs : Bool)
| simulate
    (mode : Option MeasureMode)
    (permanent : Bool)
    (units : Option (List UnitId))
deriving DecidableEq, Repr

/- Everything a command line asks for. -/
structure Invocation where
  config : Option String := none
  debug : Bool := false
  json : Bool := false
  checkConfig : Bool := false
  command : Option Command := none
deriving DecidableEq, Repr

end CoreTally.CommandLine
