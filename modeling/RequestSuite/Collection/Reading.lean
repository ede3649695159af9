/-
Collections read from checked documents.

* `ReadingWarning`: what is skipped or ignored, and what is said of it;
* `readBody`, `readHeaders`, `readScript`, `readRequest`: the parts of a request;
* `readItem`, `readItems`: nodes, in document order;
* `readCollection`: a whole collection.
-/
import RequestSuite.Collection.UrlText
import RequestSuite.Collection.Variables

namespace RequestSuite

/-- What is skipped or ignored in a document. `place` is the path of names down to an item. -/
inductive ReadingWarning
  /-- An item of the list below `trail` is no object. -/
  | notAnObject (trail : String) (index : Nat)
  | neitherFolderNorRequest (place : String)
  | requestType (place : String)
  | bodyType (place : String)
  | rawType (place : String)
  | scriptType (place : String)
  | linesType (place : String)
  deriving DecidableEq, Repr

/-- What is said of a skipped item or an ignored field. -/
def ReadingWarning.message : ReadingWarning → String
  | .notAnObject trail index =>
    "Skipping item " ++ trail ++ "[" ++ toString index ++ "]: not an object"
  | .neitherFolderNorRequest place =>
    "Skipping item \"" ++ place ++ "\": neither a folder nor a request"
  | .requestType place =>
    "Skipping item \"" ++ place ++ "\": request must be an object or a URL string"
  | .bodyType place => "Ignoring body of \"" ++ place ++ "\": not an object"
  | .rawType place => "Ignoring body of \"" ++ place ++ "\": body.raw must be a string"
  | .scriptType place => "Ignoring test script of \"" ++ place ++ "\": script must be an object"
  | .linesType place =>
    "Ignoring test script of \"" ++ place ++ "\": exec must be a string or a list of lines"

/-- A part of a document together with what was skipped or ignored in it. -/
abbrev Reading (α : Type) := α × List ReadingWarning

/-- A text, or another one in place of the empty text. -/
def orElseText (s default : String) : String := if s = "" then default else s

/-- The body of a request. -/
def readBody (place : String) (body : Json) : Reading (Option Body) :=
  match body with
  | .null => (none, [])
  | .obj _ =>
    match body.member "raw" with
    | .null => (some ⟨(body.member "mode").text, none⟩, [])
    | .str raw => (some ⟨(body.member "mode").text, some raw⟩, [])
    | _ => (none, [.rawType place])
  | _ => (none, [.bodyType place])

/-- A header, if it is an object with a key. -/
def readHeader? (header : Json) : Option Header :=
  if header.isObject && (header.member "key").truthy then
    some ⟨(header.member "key").text, (header.member "value").text,
      (header.member "disabled").isOn⟩
  else none

/-- The headers of a request. -/
def readHeaders (headers : Json) : List Header :=
  (headers.items?.getD []).filterMap readHeader?

/-- Whether an event of an item is the one of its tests. -/
def isTestEvent (event : Json) : Bool :=
  event.isObject && (event.member "listen").str? == some "test"

/-- The text of a script's lines. -/
def readLines (place : String) (lines : Json) : Reading (Option String) :=
  match lines with
  | .arr lines => (some (joinTexts "\n" lines), [])
  | .str text => (some text, [])
  | .null => (none, [])
  | _ => (none, [.linesType place])

/-- The test script of an item: that of the first test event. -/
def readScript (place : String) (item : Json) : Reading (Option String) :=
  let events := if (item.member "event").isNull then item.member "events" else item.member "event"
  match (events.items?.getD []).find? isTestEvent with
  | none => (none, [])
  | some event =>
    match event.member "script" with
    | .null => (none, [])
    | .obj script => readLines place ((Json.obj script).member "exec")
    | _ => (none, [.scriptType place])

/-- The request of an item that has one. A text is a URL. -/
def readRequest (name place : String) (item : Json) : Reading (Option Request) :=
  let (script, scriptWarnings) := readScript place item
  match item.member "request" with
  | .str url => (some { name, url, script }, scriptWarnings)
  | .obj fields =>
    let request := Json.obj fields
    let (body, bodyWarnings) := readBody place (request.member "body")
    (some
      { name, body, script
        method := orElseText (request.member "method").text "GET"
        url := urlText (request.member "url")
        headers := readHeaders (request.member "header") },
      scriptWarnings ++ bodyWarnings)
  | _ => (none, scriptWarnings ++ [.requestType place])

/-- The node of an item that is no group. -/
def readLeaf (name place : String) (item : Json) : Reading (Option Node) :=
  if (item.member "request").isNull then (none, [.neitherFolderNorRequest place])
  else
    let (request, warnings) := readRequest name place item
    (request.map Node.request, warnings)

/-- The name of an item, made from its index if it has none. -/
def itemName (index : Nat) (item : Json) : String :=
  orElseText (item.member "name").text ("item-" ++ toString index)

/-- The place of an item of a name below `trail`. -/
def placeBelow (trail name : String) : String := if trail = "" then name else trail ++ "/" ++ name

mutual

/-- The node of an item: a group if it has a list of items. -/
def readItem (trail : String) (index : Nat) : Json → Reading (Option Node)
  | .obj fields =>
    let name := itemName index (.obj fields)
    let place := placeBelow trail name
    match readChildren? place fields with
    | some (children, warnings) => (some (.group name children), warnings)
    | none => readLeaf name place (.obj fields)
  | _ => (none, [.notAnObject trail index])

/-- The nodes in the list of items among an object's members, if there is one. -/
def readChildren? (place : String) : List (String × Json) → Option (Reading (List Node))
  | [] => none
  | (key, .arr items) :: fields =>
    if key = "item" then some (readItems place 0 items) else readChildren? place fields
  | (key, _) :: fields => if key = "item" then none else readChildren? place fields

/-- The nodes of items from an index on. -/
def readItems (trail : String) (index : Nat) : List Json → Reading (List Node)
  | [] => ([], [])
  | item :: items =>
    let (node, warnings) := readItem trail index item
    let (nodes, later) := readItems trail (index + 1) items
    (node.toList ++ nodes, warnings ++ later)

end

/-- The collection of a document that has passed its check. -/
def readCollection (document : Json) : Reading Collection :=
  let info := document.member "info"
  let (children, warnings) := readItems "" 0 ((document.member "item").items?.getD [])
  ({ name := orElseText (info.member "name").text "Unnamed Collection"
     schemaUrl := (info.member "schema").str?
     children
     bindings := readVariables (document.member "variable") },
    warnings)

end RequestSuite
