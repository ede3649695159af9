/-
The file with the choices of a build.

* `optionsPath`: where the file is looked for;
* `optionsOfText`: the choices that its text makes.

The choices stand under the key `options`, or at the top where there is no such key. A file that is
no such document leaves all choices at their defaults.
-/
import RequestSuite.Keyed
import RequestSuite.Shape.Options
import RequestSuite.Yaml.Document

namespace RequestSuite.Config

/-- The variable that names the file. -/
def optionsVariable : String := "PM_CONFIG_PATH"

/-- The file that is read where none is named. -/
def defaultOptionsPath : String := "postmortem.yaml"

/-- The path of the file: the one that is given, or else the one that a variable names. -/
def optionsPath (given : Option String) (environment : Keyed String) : String :=
  match given, environment.get? optionsVariable with
  | some path, _ => path
  | none, none | none, some "" => defaultOptionsPath
  | none, some path => path

/-- The choices of a document. -/
def optionsOfDocument (document : Json) : Options :=
  match document with
  | .obj fields =>
    match Shape.options ((Keyed.get? "options" fields).getD document) with
    | .ok options => options
    | .error _ => {}
  | _ => {}

/-- The choices of a text. Only a scalar that looks like a value but stands for none is an error. -/
def optionsOfText (text : List Char) : Except Yaml.ScalarFault Options :=
  match Yaml.read text with
  | .ok document => .ok (optionsOfDocument document)
  | .error (.scalar fault) => .error fault
  | .error _ => .ok {}

end RequestSuite.Config
