/-
Paths with slashes.

* `PathRoot`, `FilePath`: where a path starts, and its components;
* `FilePath.parse`, `FilePath.text`: reading and writing a path; empty components and `.` are
  dropped, `..` is kept, and two slashes at the start differ from one and from more;
* `FilePath.hasNul`: whether no file system can take a path;
* `FilePath.join`, `FilePath.parent`: paths below and above;
* `FilePath.within`: the place of a path as seen from a directory;
* `normal`: the written form of a path read from a text.
-/
import RequestSuite.Text.Fields

namespace RequestSuite

/-- Where a path starts. -/
inductive PathRoot
  | relative
  | single
  | double
  deriving DecidableEq, Repr

/-- A path. -/
structure FilePath where
  root : PathRoot := .relative
  components : List String := []
  deriving DecidableEq, Repr

namespace FilePath

/-- The slashes of a root. -/
def rootText : PathRoot → String
  | .relative => ""
  | .single => "/"
  | .double => "//"

/-- The root of a text: exactly two slashes at its start are kept as two. -/
def rootOf : List Char → PathRoot
  | '/' :: '/' :: '/' :: _ => .single
  | '/' :: '/' :: _ => .double
  | '/' :: _ => .single
  | _ => .relative

/-- Reads a path. -/
def parse (text : String) : FilePath where
  root := rootOf text.toList
  components :=
    ((Text.fields (· == '/') text.toList).map String.ofList).filter fun part =>
      part != "" && part != "."

/-- Writes a path. The relative path without components is `.`. -/
def text (path : FilePath) : String :=
  if path.root = .relative && path.components.isEmpty then "."
  else rootText path.root ++ String.intercalate "/" path.components

/-- Whether a path holds the character that ends all paths. -/
def hasNul (path : FilePath) : Bool := path.components.any fun part => part.toList.contains '\x00'

/-- A path below another. -/
def join (path : FilePath) (components : List String) : FilePath :=
  { path with components := path.components ++ components }

/-- The path without its last component. -/
def parent (path : FilePath) : FilePath :=
  { path with components := path.components.dropLast }

/-- Components without `..` and the ones that each of them takes back. -/
def withoutSteps (components : List String) : List String :=
  (components.foldl (fun kept part => if part = ".." then kept.drop 1 else part :: kept) []).reverse

/-- The place of a path as seen from a directory, without any `..`. -/
def within (directory path : FilePath) : FilePath :=
  if path.root = .relative then
    { directory with components := withoutSteps (directory.components ++ path.components) }
  else { path with components := withoutSteps path.components }

end FilePath

/-- The normal form of a path. -/
def normal (path : String) : String := (FilePath.parse path).text

end RequestSuite
