/-
JSON values of given shapes.

* `text`, `switch`, `whole`: texts, truth values, and whole numbers, which may be written in other
  ways;
* `nullable`, `list`: values that may be null, and lists;
* `required`, `defaulted`: the members of an object.
-/
import RequestSuite.Json.Value
import RequestSuite.Shape.Fault
import RequestSuite.Shape.Number

namespace RequestSuite.Shape

/-- A reader of values of one shape. -/
abbrev Reader (α : Type) := Json → Shaped α

/-- A text. -/
def text : Reader String
  | .str s => .ok s
  | _ => .fault .stringType

/-- The words for true, in lower case. -/
def trueWords : List String := ["1", "t", "y", "on", "yes", "true"]

/-- The words for false, in lower case. -/
def falseWords : List String := ["0", "f", "n", "no", "off", "false"]

/-- Whether a whole number fits into 64 bits with a sign. -/
def fitsWord (n : Int) : Bool := -(power 2 63 : Int) ≤ n && n < power 2 63

/-- Whether a whole number that is written with a point fits into 64 bits with a sign. The least of
those numbers does not count. -/
def fitsPointed (n : Int) : Bool := -(power 2 63 : Int) < n && n < power 2 63

/-- The truth value of a whole number. -/
def switchOfInt (n : Int) : Shaped Bool :=
  if n = 0 then .ok false else if n = 1 then .ok true else .fault .boolParsing

/-- The whole number that a number is, if it is one. -/
def wholeOfFloat? : Binary64 → Option Int
  | .finite negative m e =>
    if e ≥ 0 then
      let n : Int := (m * power 2 e : Nat)
      some (if negative then -n else n)
    else if m % power 2 (-e) = 0 then
      let n : Int := (m / power 2 (-e) : Nat)
      some (if negative then -n else n)
    else none
  | _ => none

/-- A truth value, or a number or word that stands for one. -/
def switch : Reader Bool
  | .bool b => .ok b
  | .str s =>
    let word := String.ofList (s.toList.map Char.toLower)
    if trueWords.contains word then .ok true
    else if falseWords.contains word then .ok false
    else .fault .boolParsing
  | .int n => if fitsWord n then switchOfInt n else .fault .boolType
  | .float x =>
    match wholeOfFloat? x with
    | some n => if fitsPointed n then switchOfInt n else .fault .boolType
    | none => .fault .boolType
  | _ => .fault .boolType

/-- A whole number, also as a truth value, as a text, or with a point. -/
def whole : Reader Int
  | .int n => .ok n
  | .bool b => .ok (if b then 1 else 0)
  | .str s =>
    match wholeOfText s.toList with
    | .whole n => .ok n
    | .tooLong => .fault .intParsingSize
    | .malformed => .fault .intParsing
  | .float .nan | .float (.infinite _) => .fault .finiteNumber
  | .float x =>
    match wholeOfFloat? x with
    | some n => if fitsPointed n then .ok n else .fault .intParsingSize
    | none => .fault .intFromFloat
  | _ => .fault .intType

/-- A whole number that is not negative. -/
def natural : Reader Nat := fun j =>
  match whole j with
  | .ok n => if n < 0 then .fault .greaterThanEqual else .ok n.toNat
  | .error e => .error e

/-- A value that may be null. -/
def nullable {α : Type} (read : Reader α) : Reader (Option α)
  | .null => .ok none
  | j => (read j).map some

/-- The items of a list from an index on. -/
def itemsFrom {α : Type} (read : Reader α) (index : Nat) : List Json → Shaped (List α)
  | [] => .ok []
  | item :: items =>
    (Shaped.both (.below (toString index) (read item)) (itemsFrom read (index + 1) items)).map
      fun (x, xs) => x :: xs

/-- A list. -/
def list {α : Type} (read : Reader α) : Reader (List α)
  | .arr items => itemsFrom read 0 items
  | _ => .fault .listType

/-- A member that must be there. -/
def required {α : Type} (name : String) (read : Reader α) (fields : List (String × Json)) :
    Shaped α :=
  .below name <|
    match Keyed.get? name fields with
    | some value => read value
    | none => .fault .missing

/-- A member that has a default. -/
def defaulted {α : Type} (name : String) (default : α) (read : Reader α)
    (fields : List (String × Json)) : Shaped α :=
  match Keyed.get? name fields with
  | some value => .below name (read value)
  | none => .ok default

end RequestSuite.Shape
