import CoreTally.CommandLine.Basic
import CoreTally.Text.Numeral
import CoreTally.Text.Pieces

/-
  This file reads the arguments of a command line.

  Arguments before the name of a command are read at the root
  level and those behind it at the level of the command, each
  with flags of its own. Some flags are known at every level. A
  value stands behind its flag or in the next argument. In that
  case it is checked when the next flag is read, or at the end.

  Key definitions include:
    * `CommandLine.Switch`
    * `CommandLine.Setting`
    * `CommandLine.Flag`
    * `CommandLine.Level`
    * `CommandLine.Given`
    * `CommandLine.Progress`
    * `CommandLine.read`
    * `CommandLine.parse`
-/

namespace CoreTally.CommandLine

------------------------------------------------------------
-- Flags
------------------------------------------------------------

/- A flag without a value. -/
inductive Switch where
| debug
| json
| checkConfig
| sysfs
| permanent
| help
| version
deriving DecidableEq, Repr

/- A flag with a value. -/
inductive Setting where
| config
| mode
| units
deriving DecidableEq, Repr

/- A flag. -/
inductive Flag where
| switch (flag : Switch)
| setting (flag : Setting)
deriving DecidableEq, Repr

/- The name of a flag behind two hyphens. -/
def Flag.name : Flag → String
| switch .debug => "debug"
| switch .json => "json"
| switch .checkConfig => "check-config"
| switch .sysfs => "sysfs"
| switch .permanent => "permanent"
| switch .help => "help"
| switch .version => "version"
| setting .config => "config"
| setting .mode => "mode"
| setting .units => "units"

/- The letter of a flag behind one hyphen. -/
def Flag.letter? : Flag → Option Char
| switch .debug => some 'd'
| switch .help => some 'h'
| switch .version => some 'V'
| setting .config => some 'c'
| _ => none

------------------------------------------------------------
-- Levels
------------------------------------------------------------

/- Where arguments stand: before a command, or behind one. -/
inductive Level where
| root
| topology
| simulate
deriving DecidableEq, Repr

namespace Level

/- Flags that are known at every level. -/
def everywhere : List Flag :=
  [.setting .config, .switch .debug, .switch .json, .switch .help]

/- The flags of a level. -/
def flags : Level → List Flag
| root => [.switch .checkConfig, .switch .version] ++ everywhere
| topology => .switch .sysfs :: everywhere
| simulate =>
    [.setting .mode, .switch .permanent, .setting .units] ++ everywhere

/- The flag with a name. -/
def named? (level : Level) (name : String) : Option Flag :=
  level.flags.find? fun flag => flag.name == name

/- The flag with a letter. -/
def lettered? (level : Level) (letter : Char) : Option Flag :=
  level.flags.find? fun flag => flag.letter? == some letter

/- A word that names a command at a level. -/
def isCommand : Level → String → Bool
| root, word => ["topology", "simulate", "help"].contains word
| _, _ => false

/- A word too many. -/
def surplus : Level → UsageError
| root => .invalidSubcommand
| _ => .unknownArgument

/-
  A word behind two lone hyphens, where not even the name of a
  command is expected.
-/
def surplusBehindHyphens (level : Level) (word : String) : UsageError :=
  if level.isCommand word then .unknownArgument else level.surplus

end Level

------------------------------------------------------------
-- Given Flags
------------------------------------------------------------

/- What the flags of a level say. -/
structure Given where
  switches : List Switch := []
  config : Option String := none
  mode : Option MeasureMode := none
  units : Option (List UnitId) := none

namespace Given

/- A flag without a value is given. -/
def has (given : Given) (flag : Switch) : Bool :=
  given.switches.contains flag

/- Take in a flag without a value, which must not come twice. -/
def turnOn (given : Given) : Switch → Except UsageError Given
| .help => .error .displayHelp
| .version => .error .displayVersion
| flag =>
    if given.has flag then
      .error .argumentConflict
    else
      .ok { given with switches := flag :: given.switches }

/- The number of a unit. -/
def unit? (text : List Char) : Option UnitId :=
  (Text.int64? text).bind fun n =>
    if 0 ≤ n.toInt ∧ n.toInt < UInt32.size then
      some (UInt32.ofNat n.toInt.toNat)
    else
      none

/-
  Take in a flag with its value. Units are separated by commas
  and may be given in several parts, and the other flags must
  not come twice.
-/
def set (given : Given) : Setting → String → Except UsageError Given
| .config, path =>
    if given.config.isSome then
      .error .argumentConflict
    else if path.isEmpty then
      .error .invalidValue
    else
      .ok { given with config := some path }
| .mode, text =>
    if given.mode.isSome then
      .error .argumentConflict
    else
      match MeasureMode.parse? text with
      | none => .error .valueValidation
      | some mode => .ok { given with mode := some mode }
| .units, text =>
    match (Text.cut (· == ',') text.toList).mapM unit? with
    | none => .error .valueValidation
    | some units =>
        .ok { given with units := some (given.units.getD [] ++ units) }

end Given

------------------------------------------------------------
-- Progress
------------------------------------------------------------

/-
  What the flags so far say, and a flag that is waiting for its
  value or has a value not yet checked.
-/
structure Progress where
  given : Given := {}
  pending : Option (Setting × Option String) := none

namespace Progress

/- The next argument may be a value. -/
def isWaiting (progress : Progress) : Bool :=
  progress.pending.any fun (_, value) => value.isNone

/- Check the pending value. -/
def settle (progress : Progress) : Except UsageError Given :=
  match progress.pending with
  | none => .ok progress.given
  | some (_, none) => .error .invalidValue
  | some (flag, some value) => progress.given.set flag value

/- Take in an argument that is a value. -/
def hold (progress : Progress) (value : String) : Progress :=
  { progress with
    pending := progress.pending.map fun (flag, _) => (flag, some value) }

/- Take in a flag, with the text behind it if there is one. -/
def flag
    (progress : Progress)
    (value : Option String) : Flag → Except UsageError Progress
| .switch flag => do
    let given ← progress.settle
    return { given := ← given.turnOn flag }
| .setting flag => do
    let given ← progress.settle
    match value with
    | none => return { given, pending := some (flag, none) }
    | some value => return { given := ← given.set flag value }

/- Take in a flag with a name, and the text behind an equals sign. -/
def long
    (progress : Progress)
    (level : Level)
    (text : List Char) : Except UsageError Progress :=
  let (name, value) :=
    match Text.cutOnce? '=' text with
    | none => (text, none)
    | some (name, value) => (name, some (String.ofList value))
  match level.named? (String.ofList name), value with
  | none, _ => .error .unknownArgument
  | some (.switch _), some _ => .error .tooManyValues
  | some flag, value => progress.flag value flag

/-
  Take in flags with letters. The text behind a flag with a
  value is that value, less an equals sign in front.
-/
def short
    (progress : Progress)
    (level : Level) : List Char → Except UsageError Progress
| [] => .ok progress
| letter :: rest =>
    match level.lettered? letter, rest with
    | none, _ => .error .unknownArgument
    | some (.switch flag), rest => do
        let progress ← progress.flag none (.switch flag)
        progress.short level rest
    | some flag, [] => progress.flag none flag
    | some flag, '=' :: value =>
        progress.flag (some (String.ofList value)) flag
    | some flag, value => progress.flag (some (String.ofList value)) flag

end Progress

/-
  Read the arguments of a level, up to the name of a command,
  which is left with the arguments behind it.
-/
def read
    (level : Level)
    (progress : Progress) :
    List String → Except UsageError (Progress × List String)
| [] => .ok (progress, [])
| word :: rest =>
    if !progress.isWaiting && level.isCommand word then
      .ok (progress, word :: rest)
    else
      match word.toList, rest with
      | ['-', '-'], [] => .ok (progress, [])
      | ['-', '-'], next :: _ => .error (level.surplusBehindHyphens next)
      | '-' :: '-' :: text, rest => do
          read level (← progress.long level text) rest
      | '-' :: letter :: letters, rest => do
          read level (← progress.short level (letter :: letters)) rest
      | _, rest =>
          if progress.isWaiting then
            read level (progress.hold word) rest
          else
            .error level.surplus

------------------------------------------------------------
-- Command Lines
------------------------------------------------------------

/- The text of a truth value. -/
def truth? (text : String) : Option Bool :=
  if text = "true" then some true
  else if text = "false" then some false
  else none

/- Check the variables that stand in for flags that are not given. -/
def Environment.check
    (environment : Environment)
    (given : Given) : Except UsageError Unit :=
  let isBadPath := given.config.isNone && environment.config == some ""
  let isBadTruth :=
    !given.has .debug &&
      environment.debug.any fun text => (truth? text).isNone
  if isBadPath || isBadTruth then .error .invalidValue else .ok ()

/- Finish a level. -/
def finish
    (environment : Environment)
    (progress : Progress) : Except UsageError Given := do
  let given ← progress.settle
  environment.check given
  return given

/- Read all arguments of a command. -/
def readCommand
    (environment : Environment)
    (level : Level)
    (words : List String) : Except UsageError Given := do
  let (progress, _) ← read level {} words
  finish environment progress

/- Help on a command, of which at most one may be named. -/
def helpOn : List String → UsageError
| [] => .displayHelp
| [word] =>
    if Level.root.isCommand word then .displayHelp else .invalidSubcommand
| _ => .invalidSubcommand

/- The command that is named, and what its flags say. -/
def command?
    (environment : Environment) :
    List String → Except UsageError (Option Command × Given)
| [] => .ok (none, {})
| name :: words => do
    if name = "topology" then
      let given ← readCommand environment .topology words
      return (some (.topology (given.has .sysfs)), given)
    else if name = "simulate" then
      let given ← readCommand environment .simulate words
      let command :=
        .simulate given.mode (given.has .permanent) given.units
      return (some command, given)
    else
      throw (helpOn words)

/-
  What a command line asks for. A flag given at both levels
  counts at the level of the command, and a variable counts
  where the flag is given at neither.
-/
def parse
    (environment : Environment)
    (words : List String) : Except UsageError Invocation := do
  let (progress, left) ← read .root {} words
  let (command, inner) ← command? environment left
  let outer ← finish environment progress
  return {
    config := inner.config.or (outer.config.or environment.config)
    debug :=
      inner.has .debug || outer.has .debug ||
        environment.debug == some "true"
    json := inner.has .json || outer.has .json
    checkConfig := outer.has .checkConfig
    command }

end CoreTally.CommandLine
