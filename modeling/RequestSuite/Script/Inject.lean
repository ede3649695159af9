/-
Set-up statements put into a test.

* `Callback`, `callback`: where the body of a test's callback stands;
* `inject`: the test with statements in front of that body.
-/
import RequestSuite.Script.Split

namespace RequestSuite.Script

open Text (splitLines joinLines trim)

/-- The body of the callback that a test is given. -/
inductive Callback
  /-- A block, by the position of its opening brace. -/
  | block (brace : Nat)
  /-- The expression of an arrow function, by its first position and the one after it. -/
  | expression (start stop : Nat)
  /-- No callback is written in the call. -/
  | missing
  deriving DecidableEq, Repr

/-- The callback found in the code that is left of a test: `depth` brackets are open, `named` says
whether the comma after the test's name has been read, and `arrow` is the position after the last
arrow. -/
def callbackIn (block : List Char) :
    (depth : Int) → (named : Bool) → (arrow : Option Nat) → List (Nat × Char) → Callback
  | _, _, _, [] => .missing
  | depth, named, arrow, (i, c) :: rest =>
    if isOpener c then
      if c = '{' && depth = 1 && named then .block i
      else callbackIn block (depth + 1) named arrow rest
    else if isCloser c then
      if depth - 1 = 0 then
        match arrow with
        | some start => .expression start i
        | none => .missing
      else callbackIn block (depth - 1) named arrow rest
    else if depth = 1 && c = ',' then
      match arrow with
      | some start => .expression start i
      | none => callbackIn block depth true arrow rest
    else if depth = 1 && named && c = '=' && block[i + 1]? = some '>' then
      callbackIn block depth named (some (i + 2)) rest
    else callbackIn block depth named arrow rest

/-- Where the body of a test's callback stands. -/
def callback (block : List Char) : Callback := callbackIn block 0 false none (code block)

/-- The indentation of one level. -/
def indent : List Char := [' ', ' ']

/-- A test with set-up statements in front of its callback's body. The expression of an arrow
function becomes the returned value of a block, and a test without a callback stays as it is. -/
def inject (block setup : List Char) : List Char :=
  if setup.isEmpty then block
  else
    let lines := joinLines ((splitLines setup).map (indent ++ ·))
    match callback block with
    | .block brace =>
      let rest := (block.drop (brace + 1)).dropWhile (· == ' ')
      let rest := if rest.head? = some '\n' then rest else '\n' :: rest
      block.take (brace + 1) ++ '\n' :: lines ++ rest
    | .expression start stop =>
      block.take start ++ " \x7b\n".toList ++ lines ++ '\n' :: indent ++ "return ".toList ++
        trim (slice block start stop) ++ ";\n\x7d".toList ++ block.drop stop
    | .missing => block

end RequestSuite.Script
