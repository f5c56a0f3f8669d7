import CoreTally.CommandLine.Run

/-
  This file is the program. It gathers the arguments, the
  environment, the clock and the files that are asked for, and
  prints the result.

  Key definitions include:
    * `Program.copyFile`
    * `Program.copyTree`
    * `Program.gather`
    * `main`
-/

namespace CoreTally.Program

open CommandLine

/- The environment of the process. -/
def environment : IO Environment := do
  let names :=
    ["TOPOPERF_CONFIG", "TOPOPERF_DEBUG", "HOME", "XDG_CONFIG_HOME"]
  let values ← names.mapM fun name => return (name, ← IO.getEnv name)
  return .ofVariables fun name => (values.lookup name).join

/- The monotonic clock. -/
def clock : IO Clock := do
  let nanos ← IO.monoNanosNow
  return .reading (.ofNat (nanos / 1000000000)) (.ofNat (nanos % 1000000000))

/- Copy a file or an empty directory, if it can be read. -/
def copyFile (files : Files) (path : String) : IO Files := do
  try
    let place := (← IO.currentDir) / path
    if ← place.isDir then
      return files.makeDirectory path
    else
      return files.write path (.ofBytes (← IO.FS.readBinFile place))
  catch _ =>
    return files

/- A name below the directory of processors that may be looked at. -/
def isRelevant (name : String) : Bool :=
  name.startsWith "cpu" || name.startsWith "index" ||
    name == "topology" || name == "cache"

/- Copy a directory with so many levels of relevant directories. -/
def copyTree : Nat → Files → String → IO Files
| 0, files, _ => return files
| depth + 1, files, path => do
    let place := (← IO.currentDir) / path
    if ← place.isDir then
      let mut files := files.makeDirectory path
      for entry in ← place.readDir do
        let child := Path.join path entry.fileName
        if ← entry.path.isDir then
          if isRelevant entry.fileName then
            files ← copyTree depth files child
        else
          files ← copyFile files child
      return files
    else
      copyFile files path

/- The depth of the directories that describe processors. -/
def processorDepth : Nat := 4

/- The files that an invocation asks for. -/
def gather
    (invocation : Invocation)
    (environment : Environment) : IO Files := do
  let files ←
    match invocation.config.or environment.configPath? with
    | none => pure {}
    | some path => copyFile {} path
  match invocation.command, invocation.loadConfig environment files with
  | some (.topology true), .ok config =>
      let files ← copyFile files config.topology.meminfo
      copyTree processorDepth files config.topology.sysfsCpuRoot
  | _, _ => return files

/- Carry out what the arguments ask for. -/
def run (words : List String) : IO UInt32 := do
  let environment ← environment
  match parse environment words with
  | .error e =>
      IO.eprintln e.label
      return e.exitCode
  | .ok invocation =>
      let files ← gather invocation environment
      let machine : Machine := { clock := ← clock, files }
      match invocation.run environment machine with
      | .error e =>
          IO.eprintln e.message
          return 1
      | .ok text =>
          IO.print text
          return 0

end CoreTally.Program

/- Carry out what the arguments ask for. -/
def main (words : List String) : IO UInt32 :=
  CoreTally.Program.run words
