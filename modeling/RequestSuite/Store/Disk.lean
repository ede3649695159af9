/-
A file system with directories.

* `DiskKey`, `DiskNode`, `Disk`: a tree of files and directories, as a list of its nodes;
* `Disk.resolve`: the place that a path names, from the working directory on;
* `Disk.makeDirectory`, `Disk.makeDirectories`: creating one directory, and all that lead to it;
* `disk`: the file system;
* `Disk.listing`: all that is there, in order.
-/
import RequestSuite.Store.Backend
import RequestSuite.Store.Path
import RequestSuite.Text.Lines

namespace RequestSuite

/-- A place in the tree: the components on the way from the working directory, where `/` and `..`
lead out of it. -/
abbrev DiskKey := List String

/-- What stands at a place. -/
inductive DiskNode
  | directory
  | file (text : String)
  /-- A file that holds no text. -/
  | binary (content : Text.Undecodable)
  deriving DecidableEq, Repr

/-- A tree of files and directories below the working directory. -/
abbrev Disk := List (DiskKey × DiskNode)

namespace Disk

/-- Nothing stands at a path, or on the way to it. -/
def noEntry (path : FilePath) : StoreError := .os ⟨2, "No such file or directory", path.text⟩

/-- Something stands at a path already. -/
def alreadyThere (path : FilePath) : StoreError := .os ⟨17, "File exists", path.text⟩

/-- A file stands on the way to a path. -/
def notADirectory (path : FilePath) : StoreError := .os ⟨20, "Not a directory", path.text⟩

/-- A directory stands at the path of a file. -/
def isADirectory (path : FilePath) : StoreError := .os ⟨21, "Is a directory", path.text⟩

/-- A path, or a component of it, is too long. -/
def nameTooLong (path : FilePath) : StoreError := .os ⟨36, "File name too long", path.text⟩

/-- The greatest number of bytes of a name. -/
def maxNameBytes : Nat := 255

/-- The greatest number of bytes of a path. -/
def maxPathBytes : Nat := 4095

/-- What stands at a place. The working directory, those above it and the root are always
there. -/
def node? (disk : Disk) (key : DiskKey) : Option DiskNode :=
  if key = ["/"] || key.all (· == "..") then some .directory
  else (disk.find? fun entry => entry.1 = key).map Prod.snd

/-- Puts a node at a place. -/
def set (key : DiskKey) (node : DiskNode) : Disk → Disk
  | [] => [(key, node)]
  | entry :: rest => if entry.1 = key then (key, node) :: rest else entry :: set key node rest

/-- The place one component further. -/
def child (key : DiskKey) (component : String) : DiskKey :=
  if component = ".." then
    if key = ["/"] then key
    else if key.all (· == "..") then key ++ [".."]
    else key.dropLast
  else key ++ [component]

/-- The place that components lead to from another. Every place but the last must be a
directory. -/
def walk (disk : Disk) (path : FilePath) (key : DiskKey) : List String → Except StoreError DiskKey
  | [] => .ok key
  | component :: components =>
    match disk.node? key with
    | some .directory =>
      if maxNameBytes < component.utf8ByteSize then .error (nameTooLong path)
      else walk disk path (child key component) components
    | some _ => .error (notADirectory path)
    | none => .error (noEntry path)

/-- The place that a path names. -/
def resolve (disk : Disk) (path : FilePath) : Except StoreError DiskKey :=
  if path.hasNul then .error .nulInPath
  else if maxPathBytes < path.text.utf8ByteSize then .error (nameTooLong path)
  else walk disk path (if path.root = .relative then [] else ["/"]) path.components

/-- What a path names, if anything. -/
def lookup? (disk : Disk) (path : FilePath) : Option DiskNode :=
  match disk.resolve path with
  | .ok key => disk.node? key
  | .error _ => none

/-- Whether a path names a directory. -/
def isDirectory (disk : Disk) (path : FilePath) : Bool := disk.lookup? path == some .directory

/-- The text of a file, each line break read as a line feed. -/
def fileText (disk : Disk) (path : FilePath) : Except StoreError String :=
  match disk.resolve path with
  | .error e => .error e
  | .ok key =>
    match disk.node? key with
    | some (.file text) => .ok (String.ofList (Text.unifyBreaks text.toList))
    | some (.binary content) => .error (.undecodable content.fault)
    | some .directory => .error (isADirectory path)
    | none => .error (noEntry path)

/-- A tree after a change, and the error if the change has failed, perhaps half done. -/
abbrev Change := Option StoreError × Disk

/-- Creates a directory in an existing one. -/
def makeDirectory (disk : Disk) (path : FilePath) : Change :=
  match disk.resolve path with
  | .error e => (some e, disk)
  | .ok key =>
    match disk.node? key with
    | some _ => (some (alreadyThere path), disk)
    | none => (none, disk.set key .directory)

/-- The creation of a directory where one that is there already is as good as a new one. -/
def orPresent (path : FilePath) (change : Change) : Change :=
  if change.1.isSome && change.2.isDirectory path then (none, change.2) else change

/-- Creates a directory and all that lead to it, for a path of at most `depth` components. -/
def makeDirectories (disk : Disk) (path : FilePath) : (depth : Nat) → Change
  | 0 => orPresent path (disk.makeDirectory path)
  | depth + 1 =>
    match disk.makeDirectory path with
    | (none, disk) => (none, disk)
    | (some e, disk) =>
      if e.errno? = some 2 then
        match makeDirectories disk path.parent depth with
        | (none, disk) => orPresent path (disk.makeDirectory path)
        | failed => failed
      else orPresent path (some e, disk)

/-- Writes a file in an existing directory. Of a text without bytes only the empty file is left. -/
def putFile (disk : Disk) (path : FilePath) (text : String) : Change :=
  match disk.resolve path with
  | .error e => (some e, disk)
  | .ok key =>
    if disk.node? key = some .directory then (some (isADirectory path), disk)
    else
      match Text.encodeFault? text.toList with
      | some fault => (some (.unencodable fault), disk.set key (.file ""))
      | none => (none, disk.set key (.file text))

/-- Creates a directory and all that lead to it. -/
def ensureDirectory (disk : Disk) (path : FilePath) : Change :=
  disk.makeDirectories path path.components.length

/-- A tree with files, each with the directories that lead to it. -/
def withFiles (files : List (String × String)) : Disk :=
  files.foldl (fun disk (name, text) =>
    let path := FilePath.parse name
    ((disk.ensureDirectory path.parent).2.putFile path text).2) []

/-- All nodes below the working directory: files with their texts, and directories with a slash at
the end, in the order of these names. -/
def listing (disk : Disk) : List (String × Option String) :=
  let inside := disk.filter fun entry => entry.1.head? != some "/" && entry.1.head? != some ".."
  let named := inside.map fun (key, node) =>
    let name := String.intercalate "/" key
    match node with
    | .directory => (name ++ "/", none)
    | .file text => (name, some text)
    | .binary _ => (name, none)
  named.mergeSort fun a b => a.1 ≤ b.1

end Disk

/-- The answer to a change of the tree. -/
def Disk.Change.answer (change : Disk.Change) : Answer × Disk :=
  match change with
  | (none, disk) => (.ok none, disk)
  | (some e, disk) => (.error e, disk)

/-- The file system with directories. Writing a file creates the directories that lead to it, and
those remain if the write fails. -/
def disk : Backend Disk
  | .read path, d =>
    match d.fileText (FilePath.parse path) with
    | .ok text => (.ok (some text), d)
    | .error e => (.error e, d)
  | .mkdir path, d => Disk.Change.answer (d.ensureDirectory (FilePath.parse path))
  | .write path text, d =>
    let path := FilePath.parse path
    match d.ensureDirectory path.parent with
    | (none, d) => Disk.Change.answer (d.putFile path text)
    | failed => Disk.Change.answer failed

end RequestSuite
