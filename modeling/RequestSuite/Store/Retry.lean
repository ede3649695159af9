/-
Calls made again after failures that may pass.

* `RetryPolicy`: how often, and after which delays;
* `Pause`: a failure that was waited out;
* `RetryPolicy.next`: what follows the answer to a call;
* `Retrying`, `retrying`: a file system that makes calls on another one again.
-/
import RequestSuite.Decimal.Fixed
import RequestSuite.Store.Backend

namespace RequestSuite

/-- How often a call is made again, and after which delays: the first after `baseDelay` seconds,
each later one after twice the time, up to `maxDelay`. -/
structure RetryPolicy where
  maxRetries : Int := 3
  baseDelay : Binary64 := .ofDecimal false 5 (-2)
  maxDelay : Binary64 := .ofInt 1
  /-- How often the first delay can be doubled before the factor leaves the range of numbers. There
  is no bound for a first delay that is kept as a whole number. -/
  maxDoublings : Option Nat := some 1023
  deriving DecidableEq, Repr

/-- The delay after `k` earlier ones, unless the doubling leaves the range of numbers. -/
def RetryPolicy.delay? (policy : RetryPolicy) (k : Nat) : Option Binary64 :=
  if (policy.maxDoublings.map fun n => decide (n < k)).getD false then none
  else
    let delay := policy.baseDelay.scale k
    some (if policy.maxDelay.lt delay then policy.maxDelay else delay)

/-- A failure that was waited out. -/
structure Pause where
  call : Call
  error : OsError
  delay : Binary64
  /-- The number of the attempt that follows, counted from one. -/
  attempt : Nat
  deriving DecidableEq, Repr

/-- The note of a pause. -/
def Pause.message (maxRetries : Int) (p : Pause) : String :=
  p.call.operation ++ " " ++ p.call.path ++ " failed (" ++ p.error.reasonText ++
    "), retrying in " ++ String.ofList (p.delay.fixed 2) ++ "s (" ++ toString p.attempt ++ "/" ++
    toString maxRetries ++ ")"

/-- The length of a pause in thousandths of a second. -/
def Pause.milliseconds (p : Pause) : Nat :=
  match p.delay with
  | .finite false m e => roundQuotient (m * power 2 e * 1000) (power 2 (-e))
  | _ => 0

/-- A state together with the pauses made so far. -/
structure Retrying (σ : Type) where
  store : σ
  pauses : List Pause := []

/-- What follows the answer to a call. -/
inductive Next
  | finish (answer : Answer)
  | again (pause : Pause)
  deriving Repr

/-- What follows the answer to a call that has failed `tried` times before: after a failure that may
pass, a pause and the call again, as long as retries are left. -/
def RetryPolicy.next (policy : RetryPolicy) (call : Call) (tried : Nat) : Answer → Next
  | .error (.os error) =>
    if error.isTransient && tried < policy.maxRetries.toNat then
      match policy.delay? tried with
      | some delay => .again ⟨call, error, delay, tried + 1⟩
      | none => .finish (.error .delayTooLarge)
    else .finish (.error (.os error))
  | answer => .finish answer

/-- Makes a call that has failed `tried` times already, and up to `left` times again. -/
def callAgain {σ : Type} (policy : RetryPolicy) (backend : Backend σ) (call : Call) :
    (left tried : Nat) → Retrying σ → Answer × Retrying σ
  | 0, _, s =>
    let (answer, store) := backend call s.store
    (answer, { s with store })
  | left + 1, tried, s =>
    let (answer, store) := backend call s.store
    match policy.next call tried answer with
    | .finish answer => (answer, { s with store })
    | .again pause => callAgain policy backend call left (tried + 1) ⟨store, s.pauses ++ [pause]⟩

/-- A file system that makes calls again as a policy says. -/
def retrying {σ : Type} (policy : RetryPolicy) (backend : Backend σ) : Backend (Retrying σ) :=
  fun call s => callAgain policy backend call policy.maxRetries.toNat 0 s

end RequestSuite
