/-
A file system in memory.

* `Memory`: files and directories under their normal paths, in the order of their first use;
* `memory`: the file system;
* `memory_write_get?`: what is read at a path after a write.
-/
import RequestSuite.Keyed
import RequestSuite.Store.Backend
import RequestSuite.Store.Path

namespace RequestSuite

/-- Files and directories. -/
structure Memory where
  files : Keyed String := []
  directories : List String := []
  deriving DecidableEq, Repr

/-- The error for a file that is not there. -/
def Memory.missing (path : String) : StoreError := .os ⟨2, "No such file", path⟩

/-- The file system in memory. A path stands for its normal form. -/
def memory : Backend Memory
  | .read path, m =>
    match m.files.get? (normal path) with
    | some text => (.ok (some text), m)
    | none => (.error (Memory.missing (normal path)), m)
  | .mkdir path, m =>
    if m.directories.contains (normal path) then (.ok none, m)
    else (.ok none, { m with directories := m.directories ++ [normal path] })
  | .write path text, m => (.ok none, { m with files := m.files.put (normal path) text })

/-- After a write, its path and every other spelling of it hold the text, and no other path
changes. -/
theorem memory_write_get? (m : Memory) (path text path' : String) :
    (memory (.write path text) m).2.files.get? (normal path') =
      if normal path' = normal path then some text else m.files.get? (normal path') :=
  Keyed.get?_put _ _ _ _

end RequestSuite
