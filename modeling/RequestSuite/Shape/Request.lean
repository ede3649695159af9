/-
Requests and places in the output, as JSON objects.

* `header`, `body`, `request`: a request in parts;
* `PlacedFile`, `placedFile`: the place of a test file;
* `adaptation`: a script that rules have been applied to.
-/
import RequestSuite.Collection.Basic
import RequestSuite.Script.Rules
import RequestSuite.Shape.Field

namespace RequestSuite.Shape

/-- A header. -/
def header : Reader Header
  | .obj fields =>
    (Shaped.both (required "key" text fields)
      (Shaped.both (defaulted "value" "" text fields)
        (defaulted "disabled" false switch fields))).map
      fun (key, value, disabled) => { key, value, disabled }
  | _ => .fault .modelType

/-- A body. -/
def body : Reader Body
  | .obj fields =>
    (Shaped.both (defaulted "mode" "" text fields)
      (defaulted "raw" none (nullable text) fields)).map fun (mode, raw) => { mode, raw }
  | _ => .fault .modelType

/-- The mark of a request among other nodes. -/
def requestKind : Reader Unit
  | .str "request" => .ok ()
  | _ => .fault .literalError

/-- A request. -/
def request : Reader Request
  | .obj fields =>
    (Shaped.both (defaulted "kind" () requestKind fields)
      (Shaped.both (required "name" text fields)
        (Shaped.both (defaulted "method" "GET" text fields)
          (Shaped.both (defaulted "url" "" text fields)
            (Shaped.both (defaulted "body" none (nullable body) fields)
              (Shaped.both (defaulted "headers" [] (list header) fields)
                (defaulted "script" none (nullable text) fields))))))).map
      fun (_, name, method, url, body, headers, script) =>
        { name, method, url, body, headers, script }
  | _ => .fault .modelType

/-- The place of a test file: its path, and the number of directories it lies below the root. -/
structure PlacedFile where
  path : String
  depth : Nat := 0
  deriving DecidableEq, Repr

/-- The place of a test file. -/
def placedFile : Reader PlacedFile
  | .obj fields =>
    (Shaped.both (required "output_path" text fields)
      (defaulted "import_depth" 0 natural fields)).map fun (path, depth) => { path, depth }
  | _ => .fault .modelType

/-- A script that rules have been applied to. -/
def adaptation : Reader Script.Adaptation
  | .obj fields =>
    (Shaped.both (defaulted "text" "" text fields)
      (defaulted "used_fallback" true switch fields)).map
      fun (text, fellBack) => { text := text.toList, fellBack }
  | _ => .fault .modelType

end RequestSuite.Shape
