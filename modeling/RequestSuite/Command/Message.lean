/-
What the command line says.

* `Message`: a message; `Message.markup`, `Message.plain`: its text with style tags and without;
* `openingMessages`, `closingMessages`: what is said before and after a conversion;
* `Console`, `printAll`: messages on a console, up to the first that cannot be printed.
-/
import RequestSuite.Build.Run

namespace RequestSuite.Command

/-- A message. -/
inductive Message
  | info (text : String)
  | done (text : String)
  | warning (text : String)
  | failure (text : String)
  deriving DecidableEq, Repr

namespace Message

/-- What a message says behind its label. -/
def said : Message → String
  | info text | done text | warning text | failure text => text

/-- The label of a message. -/
def label : Message → String
  | info _ => "[PM]"
  | done _ => "[PM][OK]"
  | warning _ => "[PM][WARN]"
  | failure _ => "[PM][FAIL]"

/-- The color of the label. -/
def color : Message → String
  | info _ => "cyan"
  | done _ => "green"
  | warning _ => "yellow"
  | failure _ => "red"

/-- The text of a message. The color of its label is given by style tags, and what it says is put
behind them as it is. -/
def markup (m : Message) : String :=
  "[" ++ m.color ++ "]" ++ m.label ++ "[/" ++ m.color ++ "] " ++ m.said

/-- The text of a message as it is meant to be shown. -/
def plain (m : Message) : String := m.label ++ " " ++ m.said

end Message

/-- Where a conversion reads and writes. -/
structure Places where
  collection : FilePath
  output : FilePath
  environment : Option FilePath
  deriving DecidableEq, Repr

/-- What is said before a conversion that is started in a directory. -/
def openingMessages (directory : FilePath) (places : Places) : List Message :=
  let place (path : FilePath) : String := (directory.within path).text
  [.info ("Collection: " ++ place places.collection), .info ("Output: " ++ place places.output)] ++
    (places.environment.map fun path => .info ("Environment: " ++ place path)).toList

/-- A message that is left out for the number zero. -/
def unlessZero (n : Nat) (message : Message) : List Message := if n = 0 then [] else [message]

/-- What is said after a conversion that has succeeded. -/
def closingMessages (output : FilePath) (o : Outcome) : List Message :=
  let bindings := (o.environment.getD []).length
  o.warnings.map (fun w => .warning w.message) ++
    [.done "Conversion completed successfully!",
      .info ("Generated " ++ toString o.files ++ " test files in " ++ output.text)] ++
    unlessZero o.folders (.info ("Created " ++ toString o.folders ++ " folders")) ++
    [.info ("Base URL: " ++ o.baseUrl)] ++
    unlessZero bindings (.info ("Environment variables: " ++ toString bindings)) ++
    unlessZero o.fallbacks
      (.info (toString o.fallbacks ++ " request(s) fell back to the default status assertion"))

/-- What is said after a conversion that has failed. -/
def failureMessage (e : BuildError) : Message := .failure ("Conversion failed: " ++ e.message)

/-- A console: what is shown of a text with style tags, unless the text cannot be printed. -/
abbrev Console := String → Option String

/-- What is shown of messages, and whether all of them could be printed. -/
def printAll (console : Console) : List Message → List String × Bool
  | [] => ([], true)
  | message :: messages =>
    match console message.markup with
    | some shown =>
      let (others, complete) := printAll console messages
      (shown :: others, complete)
    | none => ([], false)

end RequestSuite.Command
