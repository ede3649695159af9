/-
File systems as transitions.

* `Call`: reading a file, creating a directory with all above it, writing a file;
* `Backend`: a file system with states in a type;
* `StoreFault`, `Faulty`, `faulty`: a file system some of whose calls fail before they take effect.
-/
import RequestSuite.Store.Error

namespace RequestSuite

/-- A call on a file system. -/
inductive Call
  | read (path : String)
  | mkdir (path : String)
  | write (path : String) (text : String)
  deriving DecidableEq, Repr

/-- The name of a call's operation. -/
def Call.operation : Call → String
  | .read _ => "read"
  | .mkdir _ => "mkdir"
  | .write .. => "write"

/-- The path of a call. -/
def Call.path : Call → String
  | .read path | .mkdir path | .write path _ => path

/-- The answer to a call: the text that was read, or nothing. -/
abbrev Answer := Except StoreError (Option String)

/-- A file system: the answer to a call in a state, and the state after it. -/
abbrev Backend (σ : Type) := Call → σ → Answer × σ

/-- Calls that are to fail: the first `times` calls of an operation on paths with an ending. -/
structure StoreFault where
  operation : String
  pathEnd : String
  errno : Int
  reason : String
  times : Int
  deriving DecidableEq, Repr

/-- Whether a fault makes a call fail. -/
def StoreFault.strikes (fault : StoreFault) (call : Call) : Bool :=
  fault.operation == call.operation && 0 < fault.times &&
    fault.pathEnd.toList.isSuffixOf call.path.toList

/-- The failure that strikes a call, and the faults left after it. -/
def strike? (call : Call) : List StoreFault → Option (OsError × List StoreFault)
  | [] => none
  | fault :: faults =>
    if fault.strikes call then
      some (⟨fault.errno, fault.reason, call.path⟩,
        { fault with times := fault.times - 1 } :: faults)
    else (strike? call faults).map fun (error, faults) => (error, fault :: faults)

/-- A state together with faults to come and the number of calls made so far. -/
structure Faulty (σ : Type) where
  store : σ
  faults : List StoreFault := []
  calls : Nat := 0

/-- A file system whose calls fail as the faults say, and otherwise go on to another one. -/
def faulty {σ : Type} (backend : Backend σ) : Backend (Faulty σ) := fun call s =>
  match strike? call s.faults with
  | some (error, faults) => (.error (.os error), { s with faults, calls := s.calls + 1 })
  | none =>
    let (answer, store) := backend call s.store
    (answer, { s with store, calls := s.calls + 1 })

end RequestSuite
