/-
What can be wrong with a JSON text.

* `FaultKind`, `Fault`: the kind of a fault and where it was found;
* `FaultKind.isLimit`: the faults of texts that are JSON, and more of it than is read;
* `Fault.message`: its report, with line, column and position.
-/
import RequestSuite.Decimal.Reader
import RequestSuite.Text.Points

namespace RequestSuite.Json

open Text (points)

/-- The ways in which a text fails to be JSON. -/
inductive FaultKind
  | valueExpected
  | nameExpected
  | colonExpected
  | commaExpected
  | stringUnclosed
  | controlCharacter
  | badEscape
  | badUnicodeEscape
  | extraData
  | byteOrderMark
  /-- A whole number of more digits than are read. -/
  | tooManyDigits (count : Nat)
  deriving DecidableEq, Repr

/-- A fault, found where `left` characters of the text were left to read. -/
structure Fault where
  kind : FaultKind
  left : Nat
  deriving DecidableEq, Repr

/-- What a fault is called. -/
def FaultKind.title : FaultKind → String
  | .valueExpected => "Expecting value"
  | .nameExpected => "Expecting property name enclosed in double quotes"
  | .colonExpected => "Expecting ':' delimiter"
  | .commaExpected => "Expecting ',' delimiter"
  | .stringUnclosed => "Unterminated string starting at"
  | .controlCharacter => "Invalid control character at"
  | .badEscape => "Invalid \\escape"
  | .badUnicodeEscape => "Invalid \\uXXXX escape"
  | .extraData => "Extra data"
  | .byteOrderMark => "Unexpected UTF-8 BOM (decode using utf-8-sig)"
  | .tooManyDigits count => digitsMessage count

/-- Whether a fault is one of size, which has no position. -/
def FaultKind.isLimit : FaultKind → Bool
  | .tooManyDigits _ => true
  | _ => false

/-- What stands in a text before the place where a fault was found. -/
def Fault.before (fault : Fault) (text : List Char) : List Char :=
  text.take (text.length - fault.left)

/-- The position at which a fault was found in a text. -/
def Fault.position (fault : Fault) (text : List Char) : Nat := (points (fault.before text)).length

/-- The report of a fault. Lines end at line feeds, and lines and columns are counted from one. -/
def Fault.message (fault : Fault) (text : List Char) : String :=
  if fault.kind.isLimit then fault.kind.title
  else
    let before := points (fault.before text)
    let line := before.count '\n'.toNat + 1
    let column := (before.reverse.takeWhile (· != '\n'.toNat)).length + 1
    fault.kind.title ++ ": line " ++ toString line ++ " column " ++ toString column ++
      " (char " ++ toString before.length ++ ")"

end RequestSuite.Json
