/-
Values of the wrong shape.

* `ShapeFaultKind`, `ShapeFault`: what is wrong with a value, and where it stands;
* `Shaped`: a value of a shape, or all that is wrong with it;
* `Shaped.both`: two parts, with the faults of both;
* `Shaped.both_eq_ok_iff`: two parts are of their shapes exactly if each of them is.
-/
namespace RequestSuite

/-- What is wrong with a value. -/
inductive ShapeFaultKind
  | missing
  | stringType
  | boolType
  | boolParsing
  | intType
  | intParsing
  | intParsingSize
  | intFromFloat
  | floatParsing
  | finiteNumber
  | greaterThanEqual
  | listType
  | dictType
  | literalError
  | modelType
  | modelAttributesType
  | jsonInvalid
  deriving DecidableEq, Repr

/-- The code of a fault. -/
def ShapeFaultKind.code : ShapeFaultKind → String
  | .missing => "missing"
  | .stringType => "string_type"
  | .boolType => "bool_type"
  | .boolParsing => "bool_parsing"
  | .intType => "int_type"
  | .intParsing => "int_parsing"
  | .intParsingSize => "int_parsing_size"
  | .intFromFloat => "int_from_float"
  | .floatParsing => "float_parsing"
  | .finiteNumber => "finite_number"
  | .greaterThanEqual => "greater_than_equal"
  | .listType => "list_type"
  | .dictType => "dict_type"
  | .literalError => "literal_error"
  | .modelType => "model_type"
  | .modelAttributesType => "model_attributes_type"
  | .jsonInvalid => "json_invalid"

/-- A fault, and the names and indices on the way to the value. -/
structure ShapeFault where
  location : List String
  kind : ShapeFaultKind
  deriving DecidableEq, Repr

/-- The way to a fault, with points between its parts. -/
def ShapeFault.place (fault : ShapeFault) : String := String.intercalate "." fault.location

/-- A value of a shape, or all that is wrong. -/
abbrev Shaped (α : Type) := Except (List ShapeFault) α

namespace Shaped

/-- A single fault, in the value itself. -/
def fault {α : Type} (kind : ShapeFaultKind) : Shaped α := .error [⟨[], kind⟩]

/-- A value that stands at a name or index of another. -/
def below {α : Type} (name : String) (x : Shaped α) : Shaped α :=
  x.mapError fun faults => faults.map fun f => { f with location := name :: f.location }

/-- Two parts, with the faults of both. -/
def both {α β : Type} (x : Shaped α) (y : Shaped β) : Shaped (α × β) :=
  match x, y with
  | .ok a, .ok b => .ok (a, b)
  | .error e, .ok _ => .error e
  | .ok _, .error e => .error e
  | .error e, .error e' => .error (e ++ e')

theorem both_eq_ok_iff {α β : Type} {x : Shaped α} {y : Shaped β} {a : α} {b : β} :
    both x y = .ok (a, b) ↔ x = .ok a ∧ y = .ok b := by
  cases x with
  | error e => cases y <;> simp [both]
  | ok a' => cases y <;> simp [both]

end Shaped

end RequestSuite
