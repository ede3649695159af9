/-
The bodies of the service's answers, as JSON.

* `Content.json`: the JSON value of a body.
-/
import RequestSuite.Service.Respond

namespace RequestSuite.Service

/-- A list of texts. -/
def texts (xs : List String) : Json := .arr (xs.map .str)

/-- The words for a fault of some kind. -/
def faultJson (fault : ShapeFault) : Json :=
  .obj [("type", .str fault.kind.code), ("loc", texts fault.location)]

/-- The variables of a suite. -/
def variablesJson : Option Variables → Json
  | some bindings => .obj (bindings.map fun v => (v.1, .str v.2))
  | none => .null

/-- A generated file. -/
def fileJson (file : String × String) : Json :=
  .obj [("path", .str file.1), ("content", .str file.2)]

/-- The JSON value of a body. -/
def Content.json : Content → Json
  | .alive => .obj [("ok", .bool true)]
  | .note detail => .obj [("detail", .str detail)]
  | .faults found => .obj [("detail", .arr (found.map faultJson))]
  | .refusal message report =>
    .obj [("detail",
      .obj [("message", .str message),
        ("errors", texts (report.errors.map DocumentError.message)),
        ("warnings", texts (report.warnings.map DocumentWarning.message))])]
  | .failure message path =>
    .obj [("detail", .obj [("message", .str message), ("path", .str path)])]
  | .built o files =>
    .obj [("ok", .bool true),
      ("files", .int o.files),
      ("folders", .int o.folders),
      ("base_url", .str o.baseUrl),
      ("environment", variablesJson o.environment),
      ("warnings", texts (o.warnings.map Warning.message)),
      ("fallbacks", .int o.fallbacks),
      ("outputs", .arr (files.map fileJson))]

end RequestSuite.Service
