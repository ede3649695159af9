/-
Request bodies in the generated suite.

* `BodyValue`, `bodyValue?`: what a body sends, a text or a JSON value;
* `bodyOverflow?`: what is said if there is no room on the stack for it;
* `BodyValue.render`: how it is written in a script.
-/
import RequestSuite.Collection.Basic
import RequestSuite.Json.Printer
import RequestSuite.Json.Reader
import RequestSuite.Script.Literal
import RequestSuite.Stack

namespace RequestSuite

/-- What a body sends. -/
inductive BodyValue
  | text (value : String)
  | json (value : Json)
  deriving Repr

/-- What a body sends, if anything. A raw body is sent as the JSON value it holds, or as text if
it holds none; JSON null is no body. -/
def bodyValue? : Option Body → Option BodyValue
  | some ⟨"raw", some raw⟩ =>
    if raw = "" then none
    else
      match Json.read raw.toList with
      | .error _ => some (.text raw)
      | .ok .null => none
      | .ok (.str s) => some (.text s)
      | .ok value => some (.json value)
  | _ => none

/-- What is said if there is no room on the stack to look at a body. -/
def readingOverflow? (stack : Stack) : Option Body → Option Overflow
  | some ⟨"raw", some raw⟩ => if raw = "" then none else stack.overflow? (.body raw.toList)
  | _ => none

/-- What is said if there is no room on the stack to write what a body sends. -/
def printingOverflow? (stack : Stack) : Option BodyValue → Option Overflow
  | some (.json value) => stack.overflow? (.printing value)
  | _ => none

/-- What is said if there is no room on the stack for a body. -/
def bodyOverflow? (stack : Stack) (body : Option Body) : Option Overflow :=
  (readingOverflow? stack body).or (printingOverflow? stack (bodyValue? body))

/-- A text with a margin put after each of its line breaks. -/
def putMargin (margin : Nat) (text : List Char) : List Char :=
  text.flatMap fun c => if c = '\n' then Json.newLine margin else [c]

/-- A body in a script, its lines after the first behind `level` levels of indentation. A JSON value
is written without regard to them, and its line breaks are replaced. -/
def BodyValue.render (level : Nat) : BodyValue → List Char
  | .text value => Script.quote value.toList
  | .json value => putMargin (2 * level) (Json.pretty 0 value)

end RequestSuite
