/-
The choices of a build, as a JSON object.

* `optionsOfFields`, `options`: the choices of an object; other members do not count.
-/
import RequestSuite.Build.Options
import RequestSuite.Shape.Field

namespace RequestSuite.Shape

/-- The choices among the members of an object. -/
def optionsOfFields (fields : List (String × Json)) : Shaped Options :=
  (Shaped.both (defaulted "flatten" false switch fields)
    (Shaped.both (defaulted "emit_setup" true switch fields)
      (defaulted "enhanced" false switch fields))).map
    fun (flatten, emitSetup, enhanced) => { flatten, emitSetup, enhanced }

/-- The choices of a build. -/
def options : Reader Options
  | .obj fields => optionsOfFields fields
  | _ => .fault .modelType

end RequestSuite.Shape
