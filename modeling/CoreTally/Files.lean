import CoreTally.Text.Pieces

/-
  This file defines the files a machine offers: a tree of
  directories, and how a path is followed through it.

  Key definitions include:
    * `FileError`
    * `FileTree`
    * `FileTree.follow`
    * `Files`
    * `Files.readText`
    * `Files.list`
    * `Path.join`
-/

namespace CoreTally

------------------------------------------------------------
-- Failures
------------------------------------------------------------

/- Why a file cannot be read or a directory cannot be listed. -/
inductive FileError where
| notFound
| notDirectory
| isDirectory
| nameTooLong
| nulInPath
| notText
| other (text : String)
deriving DecidableEq, Repr

/- The words for a failure. -/
def FileError.message : FileError → String
| notFound => "No such file or directory (os error 2)"
| notDirectory => "Not a directory (os error 20)"
| isDirectory => "Is a directory (os error 21)"
| nameTooLong => "File name too long (os error 36)"
| nulInPath => "file name contained an unexpected NUL byte"
| notText => "stream did not contain valid UTF-8"
| other text => text

------------------------------------------------------------
-- Paths
------------------------------------------------------------

namespace Path

/- A path that starts at the root of all files. -/
def isAbsolute (path : String) : Bool :=
  path.toList.head? == some '/'

/-
  The path of `name` below the directory `base`. An absolute
  name stands for itself, and a slash is put in between where
  `base` does not end in one.
-/
def join (base name : String) : String :=
  if isAbsolute name || base.isEmpty then
    name
  else if base.toList.getLast? == some '/' then
    base ++ name
  else
    base ++ "/" ++ name

/-
  The names a path goes through. Repeated slashes count once,
  and one at the end asks for the directory itself.
-/
def steps (path : String) : List String :=
  let names := (Text.cut (· == '/') path.toList).map String.ofList
  let ended := if names.getLast? == some "" then ["."] else []
  names.filter (· != "") ++ ended

/- The longest name of one file in bytes. -/
def longestName : Nat := 255

/- The longest path in bytes. -/
def longestPath : Nat := 4095

end Path

------------------------------------------------------------
-- Trees of Files
------------------------------------------------------------

/-
  A text file, a file whose bytes are no text, or a directory
  with its entries in listing order.
-/
inductive FileTree where
| text (content : String)
| binary
| directory (entries : List (String × FileTree))
deriving Inhabited

namespace FileTree

/- The file that holds the given bytes. -/
def ofBytes (bytes : ByteArray) : FileTree :=
  match String.fromUTF8? bytes with
  | some content => .text content
  | none => .binary

/- The entries of a directory, none for a plain file. -/
def entries : FileTree → List (String × FileTree)
| .directory entries => entries
| _ => []

/-
  The file at the end of a row of names, starting in `here`,
  which lies below the directories `above` (nearest first).
-/
def follow :
    List String →
    List FileTree →
    FileTree →
    Except FileError FileTree
| [], _, here => .ok here
| name :: rest, above, .directory entries =>
    if name = "." then
      follow rest above (.directory entries)
    else if name = ".." then
      match above with
      | [] => follow rest [] (.directory entries)
      | parent :: above => follow rest above parent
    else if Path.longestName < name.utf8ByteSize then
      .error .nameTooLong
    else
      match entries.lookup name with
      | none => .error .notFound
      | some child => follow rest (.directory entries :: above) child
| _ :: _, _, _ => .error .notDirectory

/-
  Replace what lies at the end of a row of names, making the
  directories on the way.
-/
def edit
    (change : Option FileTree → FileTree) :
    List String →
    FileTree →
    FileTree
| [], here => change (some here)
| [name], here =>
    let old := here.entries.lookup name
    .directory (replace name (change old) here.entries)
| name :: rest, here =>
    let child := (here.entries.lookup name).getD (.directory [])
    .directory (replace name (edit change rest child) here.entries)
where
  /- Put an entry in the place of one with the same name. -/
  replace
      (name : String)
      (new : FileTree) :
      List (String × FileTree) →
      List (String × FileTree)
  | [] => [(name, new)]
  | entry :: rest =>
      if entry.1 = name then
        (name, new) :: rest
      else
        entry :: replace name new rest

end FileTree

------------------------------------------------------------
-- Files of a Machine
------------------------------------------------------------

/- All files, and the directory that relative paths start in. -/
structure Files where
  root : FileTree := .directory []
  working : FileTree := .directory []
deriving Inhabited

namespace Files

/- The file at a path. -/
def find (files : Files) (path : String) : Except FileError FileTree :=
  if path.toList.contains '\x00' then
    .error .nulInPath
  else if path.isEmpty then
    .error .notFound
  else if Path.longestPath < path.utf8ByteSize then
    .error .nameTooLong
  else if Path.isAbsolute path then
    FileTree.follow (Path.steps path) [] files.root
  else
    FileTree.follow (Path.steps path) [] files.working

/- The text of the file at a path. -/
def readText (files : Files) (path : String) : Except FileError String :=
  match files.find path with
  | .error e => .error e
  | .ok (.text content) => .ok content
  | .ok .binary => .error .notText
  | .ok (.directory _) => .error .isDirectory

/- The names in the directory at a path, in listing order. -/
def list (files : Files) (path : String) : Except FileError (List String) :=
  match files.find path with
  | .error e => .error e
  | .ok (.directory entries) => .ok (entries.map Prod.fst)
  | .ok _ => .error .notDirectory

/- There is a file or directory at a path. -/
def holds (files : Files) (path : String) : Bool :=
  match files.find path with
  | .ok _ => true
  | .error _ => false

/- Write a file, making the directories above it. -/
def write (files : Files) (path : String) (new : FileTree) : Files :=
  edit path (fun _ => new)
where
  /- Change the tree that the path starts in. -/
  edit (path : String) (change : Option FileTree → FileTree) : Files :=
    if Path.isAbsolute path then
      { files with root := FileTree.edit change (Path.steps path) files.root }
    else
      { files with
        working := FileTree.edit change (Path.steps path) files.working }

/- Make a directory where there is none yet. -/
def makeDirectory (files : Files) (path : String) : Files :=
  write.edit files path fun old => old.getD (.directory [])

end Files

end CoreTally
