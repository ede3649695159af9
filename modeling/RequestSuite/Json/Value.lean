/-
JSON documents.

* `Json`: a value, with the members of an object in order;
* `Json.truthy`: whether a value counts as present and not empty;
* `Json.member`: a member of an object, and null where there is none.
-/
import RequestSuite.Decimal.Binary64
import RequestSuite.Keyed

namespace RequestSuite

/-- A JSON value. Whole numbers without point and exponent are kept exactly. -/
inductive Json
  | null
  | bool (value : Bool)
  | int (value : Int)
  | float (value : Binary64)
  | str (value : String)
  | arr (items : List Json)
  | obj (fields : List (String × Json))
  deriving Repr

namespace Json

/-- A value is truthy unless it is null, false, zero, or an empty text, list or object. -/
def truthy : Json → Bool
  | null => false
  | bool b => b
  | int n => n != 0
  | float x => !x.isZero
  | str s => s != ""
  | arr items => !items.isEmpty
  | obj fields => !fields.isEmpty

/-- The member of an object with a given key, or null. -/
def member (key : String) : Json → Json
  | obj fields => (Keyed.get? key fields).getD null
  | _ => null

/-- Whether a value is null. -/
def isNull : Json → Bool
  | null => true
  | _ => false

/-- Whether a value is an object. -/
def isObject : Json → Bool
  | obj _ => true
  | _ => false

/-- The items of a list. -/
def items? : Json → Option (List Json)
  | arr items => some items
  | _ => none

/-- The text of a text value. -/
def str? : Json → Option String
  | str s => some s
  | _ => none

end Json

end RequestSuite
