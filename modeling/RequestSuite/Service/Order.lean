/-
What the service is asked to build.

* `Order`: a collection, perhaps an environment, and the choices of a build;
* `order`: an order, as a JSON object.
-/
import RequestSuite.Shape.Options

namespace RequestSuite.Service

open Shape (required defaulted nullable optionsOfFields)

/-- What the service is asked to build. -/
structure Order where
  collection : Json
  environment : Option Json
  options : Options

/-- Any object. -/
def document : Shape.Reader Json
  | .obj fields => .ok (.obj fields)
  | _ => .fault .dictType

/-- The choices of a build. -/
def options : Shape.Reader Options
  | .obj fields => optionsOfFields fields
  | _ => .fault .modelAttributesType

/-- An order. -/
def order : Shape.Reader Order
  | .obj fields =>
    (Shaped.both (required "collection" document fields)
      (Shaped.both (defaulted "environment" none (nullable document) fields)
        (defaulted "options" {} options fields))).map
      fun (collection, environment, options) => { collection, environment, options }
  | _ => .fault .modelAttributesType

end RequestSuite.Service
