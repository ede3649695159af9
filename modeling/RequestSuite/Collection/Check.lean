/-
The check of a document's outline before it is read.

* `DocumentError`, `DocumentWarning`: what can be wrong or missing, and what is said of it;
* `Report`: all that was found;
* `checkCollection`, `checkEnvironment`: the checks.
-/
import RequestSuite.Json.Value

namespace RequestSuite

/-- What makes a document unusable. -/
inductive DocumentError
  | collectionMissing
  | infoMissing
  | itemsMissing
  | valuesMissing
  deriving DecidableEq, Repr

/-- What is said of an unusable document. -/
def DocumentError.message : DocumentError → String
  | .collectionMissing => "Collection is required"
  | .infoMissing => "Collection must have an info object"
  | .itemsMissing => "Collection must have an items array"
  | .valuesMissing => "Environment must have a values array"

/-- What a usable document lacks. -/
inductive DocumentWarning
  | nameMissing
  | schemaMissing
  | noItems
  | environmentNameMissing
  | noVariables
  | keyMissing (index : Nat)
  deriving DecidableEq, Repr

/-- What is said of an incomplete document. -/
def DocumentWarning.message : DocumentWarning → String
  | .nameMissing => "Collection name is missing"
  | .schemaMissing => "Collection schema is missing"
  | .noItems => "Collection has no items"
  | .environmentNameMissing => "Environment name is missing"
  | .noVariables => "Environment has no variables"
  | .keyMissing index => "Environment variable at index " ++ toString index ++ " is missing a key"

/-- All that was found in a document. -/
structure Report where
  errors : List DocumentError := []
  warnings : List DocumentWarning := []
  deriving DecidableEq, Repr

/-- Whether a document is usable. -/
def Report.ok (r : Report) : Bool := r.errors.isEmpty

/-- Findings of two parts of a document. -/
def Report.append (r r' : Report) : Report := ⟨r.errors ++ r'.errors, r.warnings ++ r'.warnings⟩

instance : Append Report := ⟨Report.append⟩

/-- A warning unless a condition holds. -/
def warnUnless (holds : Bool) (w : DocumentWarning) : Report :=
  if holds then {} else ⟨[], [w]⟩

/-- The check of what a collection says about itself. -/
def checkInfo (info : Json) : Report :=
  if info.isObject then
    warnUnless (info.member "name").truthy .nameMissing ++
      warnUnless (info.member "schema").truthy .schemaMissing
  else ⟨[.infoMissing], []⟩

/-- The check of a collection's items. -/
def checkItems : Json → Report
  | .arr items => warnUnless (!items.isEmpty) .noItems
  | _ => ⟨[.itemsMissing], []⟩

/-- The check of a collection: an object that is not empty, with an object of information and a
list of items. -/
def checkCollection (document : Json) : Report :=
  if document.isObject && document.truthy then
    checkInfo (document.member "info") ++ checkItems (document.member "item")
  else ⟨[.collectionMissing], []⟩

/-- The warnings about variables without a key, for variables from an index on. -/
def checkKeys (index : Nat) : List Json → List DocumentWarning
  | [] => []
  | entry :: entries =>
    if entry.isObject && (entry.member "key").truthy then checkKeys (index + 1) entries
    else .keyMissing index :: checkKeys (index + 1) entries

/-- The check of an environment's variables. -/
def checkValues : Json → Report
  | .arr [] => ⟨[], [.noVariables]⟩
  | .arr values => ⟨[], checkKeys 0 values⟩
  | _ => ⟨[.valuesMissing], []⟩

/-- The check of an environment: nothing at all, or an object with a list of values. -/
def checkEnvironment (document : Json) : Report :=
  if document.isNull then {}
  else if document.isObject then
    warnUnless (document.member "name").truthy .environmentNameMissing ++
      checkValues (document.member "values")
  else ⟨[.valuesMissing], []⟩

end RequestSuite
