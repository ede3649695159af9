/-
The test file of a request.

* `plainCall`, `enhancedCall`: the call that sends the request;
* `headLines`: everything up to the end of the hook that sends it;
* `Cases`, `casesOf`: what its script contributes, inside the default test or beside it;
* `testText`: the text of the file; `testOverflow?`: what is said if there is no room on the stack
  for it.
-/
import RequestSuite.Layout.Plan
import RequestSuite.Script.Inject
import RequestSuite.Script.Rules
import RequestSuite.Suite.Body
import RequestSuite.Suite.Setup
import RequestSuite.Url.RequestPath

namespace RequestSuite.Suite

open Text (splitLines joinLines trimEnd allBlank lower dropEndWhile)

/-- The title of the default test. -/
def defaultTitle : String := "should respond with correct data"

/-- The assertion for requests without any of their own. -/
def defaultAssertion (enhanced : Bool) : String :=
  if enhanced then "expect(response.status).to.equal(200);"
  else "expect(response.status).to.be.oneOf([200, 201, 204]);"

/-- The name of a request's suite: its own name, after that of its group if it has one. -/
def suiteName (request : Request) (parent : Option String) : String :=
  match parent with
  | none | some "" => request.name
  | some group => group ++ " - " ++ request.name

/-- The headers of a request that are sent: each enabled key once, with its last value. -/
def sentHeaders (headers : List Header) : Keyed String :=
  Keyed.ofList ((headers.filter fun h => h.key != "" && !h.disabled).map fun h => (h.key, h.value))

/-- The method of a request in lower case. -/
def methodName (method : String) : String :=
  String.ofList (lower (if method = "" then "GET" else method).toList)

/-- What is sent: the method, the path, the body and the headers of a request. -/
structure Call where
  method : String
  path : String
  body : Option BodyValue
  headers : Keyed String

/-- What a request sends. -/
def callOf (request : Request) : Call where
  method := methodName request.method
  path := String.ofList (Url.requestPath request.url.toList)
  body := bodyValue? request.body
  headers := sentHeaders request.headers

/-- The level at which the parts of a call are written. -/
def callLevel : Nat := 3

/-- The text of a body in a call. -/
def bodyText (body : BodyValue) : String := String.ofList (body.render callLevel)

/-- The call in the plain style: a chain of settings, one to a line. -/
def plainCall (call : Call) : String :=
  let settings :=
    call.headers.map (fun h => ".set(" ++ literal h.1 ++ ", " ++ literal h.2 ++ ")") ++
      (call.body.map fun body => ".send(" ++ bodyText body ++ ")").toList
  "response = await request." ++ call.method ++ "(" ++ literal call.path ++ ")" ++
    String.join (settings.map fun setting => "\n" ++ indentation callLevel ++ setting) ++ ";"

/-- The call in the enhanced style: the body and the headers are arguments. -/
def enhancedCall (call : Call) : String :=
  let body := match call.body with
    | some body => [bodyText body]
    | none => if call.headers.isEmpty then [] else ["undefined"]
  let headers :=
    if call.headers.isEmpty then []
    else ["\x7b headers: " ++ objectLiteral callLevel call.headers ++ " \x7d"]
  "response = await api." ++ call.method ++ "(" ++
    String.intercalate ", " (literal call.path :: body ++ headers) ++ ");"

/-- The lines of a file in the plain style up to the end of the hook that sends the request. -/
def plainHeadLines (setupPath title : String) (call : Call) : List String :=
  ["const \x7b request, expect \x7d = require(" ++ literal setupPath ++ ");",
    "",
    "describe('" ++ title ++ "', function () \x7b",
    "  let response;",
    "",
    "  before(async function () \x7b",
    "    " ++ plainCall call,
    "  \x7d);"]

/-- The lines of a file in the enhanced style up to the end of the hook that sends the request. -/
def enhancedHeadLines (setupPath title : String) (call : Call) : List String :=
  ["const \x7b api, expect, expectSuccess, expectResponseTime, DEFAULT_TIMEOUT \x7d = require(" ++
      literal setupPath ++ ");",
    "",
    "describe('" ++ title ++ "', function () \x7b",
    "  let response;",
    "  let elapsed;",
    "",
    "  before(async function () \x7b",
    "    const startTime = Date.now();",
    "    try \x7b",
    "      " ++ enhancedCall call,
    "    \x7d catch (error) \x7b",
    "      console.error('✗ " ++ title ++ " failed:', error.message);",
    "      throw error;",
    "    \x7d",
    "    elapsed = Date.now() - startTime;",
    "    console.log('✓ " ++ title ++
      " - Status: ' + response.status + ', Time: ' + elapsed + 'ms');",
    "  \x7d);"]

/-- The lines of a file up to the end of the hook that sends the request. -/
def headLines (enhanced : Bool) (request : Request) (depth : Nat) (parent : Option String) :
    List String :=
  let setupPath := String.ofList (Layout.importPath depth setupFileName.toList)
  let title := String.ofList (Script.escape (suiteName request parent).toList)
  if enhanced then enhancedHeadLines setupPath title (callOf request)
  else plainHeadLines setupPath title (callOf request)

/-- What the script of a request contributes to its file. -/
structure Cases where
  /-- Blocks inside the default test. -/
  inside : List (List Char) := []
  /-- Tests beside the default test. -/
  beside : Option (List Char) := none
  deriving DecidableEq, Repr

/-- A script as a comment. -/
def commented (script : List Char) : List Char :=
  joinLines ("// Unconverted Postman script:".toList ::
    (splitLines script).map fun line => trimEnd ("// ".toList ++ line))

/-- The contribution of a script that no rule has changed: a comment, and the default assertion. -/
def fallbackCases (enhanced : Bool) (script : Option String) : Cases :=
  let comment := match script with
    | some text => if allBlank text.toList then [] else [commented text.toList]
    | none => []
  { inside := comment ++ [(defaultAssertion enhanced).toList] }

/-- The contribution of an adapted script. Only a script that declared tests is taken apart. If all
its tests stand at the top level, each gets the other statements as its set-up; if one does not,
the whole script stands beside the default test. -/
def adaptedCases (script : Option String) (adapted : List Char) : Cases :=
  let text := dropEndWhile (· == '\n') (adapted.dropWhile (· == '\n'))
  let parts := Script.split text
  if (Script.testNames (script.map String.toList)).isEmpty || (parts.tests.isEmpty && !parts.nested)
  then { inside := [text] }
  else if parts.nested then { beside := some text }
  else
    let blocks := parts.tests.map fun block => Script.inject block parts.setup
    { beside := some (List.intercalate "\n\n".toList blocks) }

/-- What is said if there is no room on the stack to take an adapted script apart. -/
def scriptOverflow? (stack : Stack) (script : Option String) (adaptation : Script.Adaptation) :
    Option Overflow :=
  if adaptation.fellBack || (Script.testNames (script.map String.toList)).isEmpty then none
  else stack.overflow? (.script adaptation.text)

/-- What the script of a request contributes to its file. -/
def casesOf (enhanced : Bool) (script : Option String) (adaptation : Script.Adaptation) : Cases :=
  if adaptation.fellBack then fallbackCases enhanced script
  else adaptedCases script adaptation.text

/-- The lines of the default test. The plain style has it only where a script has something to put
inside. -/
def defaultTestLines (enhanced : Bool) (inside : List (List Char)) : List String :=
  if enhanced || !inside.isEmpty then
    ["", "  it('" ++ defaultTitle ++ "', function () \x7b"] ++
      (if enhanced then
        ["    expectSuccess(response);", "    expectResponseTime(elapsed, DEFAULT_TIMEOUT);"]
      else []) ++
      inside.map (indentBlock 2) ++ ["  \x7d);"]
  else []

/-- The lines of the tests beside the default test. -/
def besideLines : Option (List Char) → List String
  | some text => ["", indentBlock 1 text]
  | none => []

/-- The text of the test file of a request that lies `depth` directories below the root, in the
group `parent`. -/
def testText (enhanced : Bool) (request : Request) (depth : Nat) (parent : Option String)
    (adaptation : Script.Adaptation) : String :=
  let parts := casesOf enhanced request.script adaptation
  joinedLines (headLines enhanced request depth parent ++
    defaultTestLines enhanced parts.inside ++ besideLines parts.beside ++ ["\x7d);", ""])

/-- What is said if there is no room on the stack for the test file of a request: its body is looked
at first, then its script is taken apart, and then what the body sends is written. -/
def testOverflow? (stack : Stack) (request : Request) (adaptation : Script.Adaptation) :
    Option Overflow :=
  (readingOverflow? stack request.body).or
    ((scriptOverflow? stack request.script adaptation).or
      (printingOverflow? stack (bodyValue? request.body)))

end RequestSuite.Suite
