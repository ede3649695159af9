/-
Failures of a file system.

* `OsError`: a failed call, by number, reason and path;
* `OsError.message`: its report;
* `OsError.isTransient`: whether the same call may succeed later;
* `StoreError`: what can come back in place of an answer.
-/
import RequestSuite.Text.Quoted
import RequestSuite.Text.Utf8

namespace RequestSuite

/-- A failed call. -/
structure OsError where
  errno : Int
  reason : String
  path : String
  deriving DecidableEq, Repr

/-- The report of a failed call. -/
def OsError.message (e : OsError) : String :=
  "[Errno " ++ toString e.errno ++ "] " ++ e.reason ++ ": " ++ Text.quoted e.path

/-- The reason of a failure, or the whole report if it has none. -/
def OsError.reasonText (e : OsError) : String := if e.reason = "" then e.message else e.reason

/-- The numbers of failures that may pass: an interrupted call, a resource that is unavailable for
now or busy, and too many open files in the system or the process. -/
def transientErrnos : List Int := [4, 11, 16, 23, 24]

/-- Whether the same call may succeed later. -/
def OsError.isTransient (e : OsError) : Bool := transientErrnos.contains e.errno

/-- What can come back in place of an answer. -/
inductive StoreError
  | os (error : OsError)
  /-- The delay before another attempt is out of the range of numbers. -/
  | delayTooLarge
  /-- A path holds the character that ends all paths. -/
  | nulInPath
  /-- The bytes of a file are those of no text. -/
  | undecodable (fault : Text.DecodeFault)
  /-- A text has no bytes. -/
  | unencodable (fault : Text.EncodeFault)
  deriving DecidableEq, Repr

/-- What is said of an error. -/
def StoreError.message : StoreError → String
  | .os error => error.message
  | .delayTooLarge => "int too large to convert to float"
  | .nulInPath => "embedded null byte"
  | .undecodable fault => fault.message
  | .unencodable fault => fault.message

/-- The number of the failure, if the call has been made. -/
def StoreError.errno? : StoreError → Option Int
  | .os error => some error.errno
  | _ => none

end RequestSuite
