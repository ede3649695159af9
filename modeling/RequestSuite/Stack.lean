/-
The stack of a run.

* `Descent`: the parts of a run that go down as many levels as what they are given has;
* `Overflow`: what is said of one that finds the stack full;
* `Stack`: which of them do; `Stack.ample`: none; `Stack.shallow`: those of deep documents.

How many levels there is room for is no number of the program: it depends on what has been called
already where a descent begins, and on how much each of its levels takes. So it is one parameter of
a run, and what is proved holds for every stack.
-/
import RequestSuite.Json.Value

namespace RequestSuite

/-- The parts of a run that go down level by level. -/
inductive Descent
  /-- A document is read. -/
  | document (text : List Char)
  /-- The items of a collection are read. -/
  | items (collection : Json)
  /-- The base URL and the variables are taken from documents. -/
  | extraction (collection environment : Json)
  /-- The files of a collection are laid out. -/
  | layout (collection : Json)
  /-- A raw body is read as JSON. -/
  | body (text : List Char)
  /-- An adapted script is taken apart. -/
  | script (text : List Char)
  /-- The JSON value of a body is written. -/
  | printing (value : Json)

/-- What is said where the stack is full. -/
structure Overflow where
  message : String
  deriving DecidableEq, Repr

/-- The stack of a run: what is said of each descent for which it has no room. -/
structure Stack where
  overflow? : Descent → Option Overflow

/-- A stack with room for everything. -/
def Stack.ample : Stack := ⟨fun _ => none⟩

/-- A stack with room for everything but to read a text that starts with `levels` brackets, each of
which opens a level. -/
def Stack.shallow (levels : Nat) : Stack where
  overflow?
    | .document text | .body text =>
      if (List.replicate levels '[').isPrefixOf text then
        some ⟨"maximum recursion depth exceeded while decoding a JSON array from a unicode string"⟩
      else none
    | _ => none

end RequestSuite
