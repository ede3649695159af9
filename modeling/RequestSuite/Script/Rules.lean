/-
The adaptation of test scripts: nine rules that turn calls on the `pm` object into the assertions
of the generated suite.

* `Rule`, `Rule.all`: the rules in the order in which they are applied;
* `Rule.pattern`, `Rule.replacement`: what each rule looks for and puts in its place;
* `Adaptation`, `adapt`: a script with every rule applied once;
* `trace`: the text after each rule that changed it;
* `testNames`, `hasAssertions`: what a script declares before it is adapted.
-/
import RequestSuite.Script.Pattern
import RequestSuite.Text.Lower

namespace RequestSuite.Script

open Text (lower)

/-- The rules of adaptation. Declarations and whole status assertions come before the rules for the
calls they are made of. -/
inductive Rule
  | testDeclaration
  | statusEquality
  | statusHave
  | statusAccess
  | headerLookup
  | bodyJson
  | bodyText
  | expectPrefix
  | responseTime
  deriving DecidableEq, Repr

/-- All rules, in the order in which they are applied. -/
def Rule.all : List Rule :=
  [.testDeclaration, .statusEquality, .statusHave, .statusAccess, .headerLookup, .bodyJson,
    .bodyText, .expectPrefix, .responseTime]

/-- The name of a rule. -/
def Rule.name : Rule → String
  | .testDeclaration => "test_declaration"
  | .statusEquality => "status_equality"
  | .statusHave => "status_have"
  | .statusAccess => "status_access"
  | .headerLookup => "header_lookup"
  | .bodyJson => "body_json"
  | .bodyText => "body_text"
  | .expectPrefix => "expect_prefix"
  | .responseTime => "response_time"

/-- The rule of a name. -/
def Rule.ofName? (name : String) : Option Rule := Rule.all.find? fun rule => rule.name == name

/-- The declaration of a test with its name. -/
def testPattern : Pattern :=
  [.literal "pm.test", .blanks, .literal "(", .blanks, .quote, .unquoted, .quote]

/-- What a rule looks for. -/
def Rule.pattern : Rule → Pattern
  | .testDeclaration => testPattern
  | .statusEquality =>
    [.literal "pm.expect", .blanks, .literal "(", .blanks, .literal "pm.response.code", .blanks,
      .literal ").to.equal", .blanks, .literal "(", .blanks, .digits, .blanks, .literal ")"]
  | .statusHave =>
    [.literal "pm.response.to.have.status", .blanks, .literal "(", .blanks, .digits, .blanks,
      .literal ")"]
  | .statusAccess => [.literal "pm.response.code", .wordEnd]
  | .headerLookup =>
    [.literal "pm.response.headers.get", .blanks, .literal "(", .blanks, .quote, .unquoted, .quote,
      .blanks, .literal ")"]
  | .bodyJson => [.literal "pm.response.json", .blanks, .literal "(", .blanks, .literal ")"]
  | .bodyText => [.literal "pm.response.text", .blanks, .literal "(", .blanks, .literal ")"]
  | .expectPrefix => [.literal "pm.expect", .wordEnd]
  | .responseTime => [.literal "pm.response.responseTime", .wordEnd]

/-- What a rule puts in place of an occurrence, made from the part that was captured: the name of
the test, the status code, or the key of the header. Header keys are in lower case. -/
def Rule.replacement (captured : List Char) : Rule → List Char
  | .testDeclaration => "it(\"".toList ++ captured ++ ['"']
  | .statusEquality => "expect(response.status).to.equal(".toList ++ captured ++ [')']
  | .statusHave => "expect(response.status).to.equal(".toList ++ captured ++ [')']
  | .statusAccess => "response.status".toList
  | .headerLookup => "response.headers[\"".toList ++ lower captured ++ "\"]".toList
  | .bodyJson => "response.body".toList
  | .bodyText => "response.text".toList
  | .expectPrefix => "expect".toList
  | .responseTime => "/* Response time not directly supported in Supertest */".toList

/-- A text with every occurrence of a rule's pattern replaced. -/
def Rule.apply (rule : Rule) (text : List Char) : List Char :=
  replaceAll rule.pattern (fun captured => rule.replacement captured) text

/-- A text with some rules applied one after another. -/
def applyRules (rules : List Rule) (text : List Char) : List Char :=
  rules.foldl (fun text rule => rule.apply text) text

/-- The rules that change a text as they are applied one after another, each with the text after
it. -/
def trace : List Rule → List Char → List (Rule × List Char)
  | [], _ => []
  | rule :: rules, text =>
    let after := rule.apply text
    if after = text then trace rules text else (rule, after) :: trace rules after

/-- An adapted script, and whether the rules left it as it was. -/
structure Adaptation where
  text : List Char := []
  fellBack : Bool := true
  deriving DecidableEq, Repr

/-- Applies rules to a script. A script that is missing or empty has the empty adaptation. -/
def adaptWith (rules : List Rule) (script : Option (List Char)) : Adaptation :=
  match script with
  | none | some [] => {}
  | some text => let after := applyRules rules text; ⟨after, after = text⟩

/-- Applies all rules to a script. -/
def adapt (script : Option (List Char)) : Adaptation := adaptWith Rule.all script

/-- The names of the tests that a script declares. -/
def testNames (script : Option (List Char)) : List (List Char) :=
  captures testPattern (script.getD [])

/-- The calls that make a script a test. -/
def assertionPatterns : List Pattern :=
  [[.literal "pm.test", .blanks, .literal "("], [.literal "pm.expect", .blanks, .literal "("],
    [.literal "pm.response.to.have"]]

/-- Whether a script declares a test or asserts something. -/
def hasAssertions (script : Option (List Char)) : Bool :=
  assertionPatterns.any fun pattern => occurs pattern (script.getD [])

end RequestSuite.Script
