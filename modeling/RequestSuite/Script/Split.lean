/-
The top-level tests of a script and the statements around them.

* `opensTest`: whether a call of `it` starts at a position;
* `Splitter`, `Splitter.read`: what is known of a script after some of its code;
* `spans`: from where to where each top-level test reaches;
* `Parts`, `split`: the tests, and the set-up made of all other lines.
-/
import RequestSuite.Script.Lexical
import RequestSuite.Text.Lines
import RequestSuite.Text.Word

namespace RequestSuite.Script

open Text (isBlank isWord splitLines joinLines trimEnd allBlank)

/-- The characters of names and member accesses. -/
def isNamePart (c : Char) : Bool := isWord c || c == '.' || c == '$'

/-- Whether a text begins with `it`, white space or not, and an opening parenthesis. -/
def beginsTest : List Char → Bool
  | 'i' :: 't' :: cs => (cs.dropWhile isBlank).head? == some '('
  | _ => false

/-- Whether a call of `it` starts at a position, `it` being no tail of a longer name. -/
def opensTest (text : List Char) (i : Nat) : Bool :=
  beginsTest (text.drop i) &&
    (i == 0 || match text[i - 1]? with
      | some c => !isNamePart c
      | none => true)

/-- The characters at the end of a line after which the next line goes on with the statement. -/
def continuations : List Char := "=,(+-*/%&|?:[.<>!".toList

/-- Whether a statement may start after the last code character `last`, given whether a line has
ended since. -/
def startsStatement (last : Option Char) (lineEnded : Bool) : Bool :=
  match last with
  | none => true
  | some c => c == ';' || c == '{' || c == '}' || (lineEnded && !continuations.contains c)

/-- The position after a test whose closing parenthesis stands at `close`: a semicolon goes with
it, past spaces and tabs. -/
def testEnd (text : List Char) (close : Nat) : Nat :=
  let after := text.drop (close + 1)
  let gap := (after.takeWhile fun c => c == ' ' || c == '\t').length
  if (after.drop gap).head? = some ';' then close + gap + 2 else close + 1

/-- What is known of a script after some of its code. -/
structure Splitter where
  /-- The number of open brackets. -/
  depth : Nat := 0
  /-- The last code character that is not white space. -/
  last : Option Char := none
  lineEnded : Bool := false
  /-- Where the test being read starts. -/
  start : Option Nat := none
  /-- Whether a test has been seen inside another statement. -/
  nested : Bool := false
  /-- Code before this position has been read with the last test. -/
  resume : Nat := 0
  /-- The tests read so far, the latest first. -/
  found : List (Nat × Nat) := []
  deriving Repr

/-- The splitter after looking for a test that starts at a position. -/
def Splitter.look (text : List Char) (s : Splitter) (i : Nat) : Splitter :=
  if s.start.isNone && opensTest text i then
    if s.depth > 0 then { s with nested := true }
    else if startsStatement s.last s.lineEnded then { s with start := some i }
    else s
  else s

/-- The splitter after a character of code that ends no test. -/
def Splitter.pass (s : Splitter) (c : Char) : Splitter :=
  if isBlank c then s else { s with last := some c, lineEnded := false }

/-- The splitter after a closing bracket. A parenthesis that leaves no bracket open ends the test
being read. -/
def Splitter.close (text : List Char) (s : Splitter) (i : Nat) (c : Char) : Splitter :=
  let s := { s with depth := s.depth - 1 }
  match s.start with
  | some start =>
    if s.depth = 0 && c = ')' then
      let stop := testEnd text i
      { s with
        start := none, resume := stop, found := (start, stop) :: s.found
        last := some ';', lineEnded := false }
    else s.pass c
  | none => s.pass c

/-- The splitter after one more character of code. -/
def Splitter.read (text : List Char) (s : Splitter) (p : Nat × Char) : Splitter :=
  if p.1 < s.resume then s
  else if p.2 = '\n' then { s with lineEnded := true }
  else
    let s := s.look text p.1
    if isOpener p.2 then { s with depth := s.depth + 1 }.pass p.2
    else if isCloser p.2 then s.close text p.1 p.2
    else s.pass p.2

/-- The splitter after all code of a script. -/
def Splitter.run (text : List Char) : Splitter := (code text).foldl (Splitter.read text) {}

/-- From where to where each top-level test of a script reaches, in order. -/
def spans (text : List Char) : List (Nat × Nat) := (Splitter.run text).found.reverse

/-- The characters of a text from one position to another. -/
def slice (text : List Char) (start stop : Nat) : List Char := (text.drop start).take (stop - start)

/-- The pieces of a text between spans, from a position on. -/
def gaps (text : List Char) (cursor : Nat) : List (Nat × Nat) → List (List Char)
  | [] => [text.drop cursor]
  | (start, stop) :: rest => slice text cursor start :: gaps text stop rest

/-- The lines of some pieces that are not blank, without white space at their ends. -/
def setupLines (pieces : List (List Char)) : List (List Char) :=
  ((pieces.flatMap splitLines).filter fun line => !allBlank line).map trimEnd

/-- A script taken apart. -/
structure Parts where
  /-- The statements around the tests. -/
  setup : List Char
  tests : List (List Char)
  /-- Whether some test stands inside another statement, so that the script cannot be taken apart
  safely. -/
  nested : Bool
  deriving DecidableEq, Repr

/-- Takes a script apart into its top-level tests and the lines around them. -/
def split (text : List Char) : Parts where
  setup := joinLines (setupLines (gaps text 0 (spans text)))
  tests := (spans text).map fun span => slice text span.1 span.2
  nested := (Splitter.run text).nested

end RequestSuite.Script
