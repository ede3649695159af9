/-
Document values read as texts and switches.

* `Json.text`: the text of a value; null has the empty text, and anything but a text is written
  out as JSON;
* `Json.isOn`: whether a value switches something on.
-/
import RequestSuite.Json.Printer
import RequestSuite.Text.Blank
import RequestSuite.Text.Lower

namespace RequestSuite.Json

open Text (trim lower)

/-- The text of a value. -/
def text : Json → String
  | null => ""
  | str s => s
  | value => String.ofList value.compact

/-- Only true, and the word in any case with white space around it, switch something on. -/
def isOn : Json → Bool
  | bool b => b
  | str s => lower (trim s.toList) == "true".toList
  | _ => false

end RequestSuite.Json
