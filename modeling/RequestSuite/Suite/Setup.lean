/-
The module that all generated test files share.

* `setupFileName`: its name;
* `clientLines`: the client and the checks that the enhanced style adds;
* `setupText`: its text, made from the base URL and the environment.
-/
import RequestSuite.Suite.Text

namespace RequestSuite.Suite

/-- The name of the shared module. -/
def setupFileName : String := "setup.js"

/-- The lines before the base URL. -/
def preambleLines : List String :=
  ["const supertest = require('supertest');",
    "const \x7b expect \x7d = require('chai');",
    "require('dotenv').config();",
    "",
    "// Base URL configuration"]

/-- The line of the base URL. -/
def baseUrlLine (baseUrl : String) : String :=
  "const BASE_URL = process.env.API_BASE_URL || " ++ literal baseUrl ++ ";"

/-- The lines between the base URL and the environment. -/
def clientSetupLines : List String :=
  ["const request = supertest(BASE_URL);", "", "// Environment variables from Postman"]

/-- The environment as an object literal, or null. -/
def environmentLiteral : Option Variables → String
  | some bindings => objectLiteral 0 bindings
  | none => "null"

/-- The lines of the environment. -/
def environmentLine (environment : Option Variables) : String :=
  "const env = " ++ environmentLiteral environment ++ ";"

/-- The lines of the timeout. -/
def timeoutLines : List String :=
  ["", "// Request timeout configuration",
    "const DEFAULT_TIMEOUT = Number(process.env.TEST_TIMEOUT) || 10000;"]

/-- The client and the checks of the enhanced style. -/
def clientLines : List String :=
  ["",
    "// Thin API client over supertest",
    "const api = \x7b\x7d;",
    "for (const method of ['get', 'post', 'put', 'patch', 'delete', 'head', 'options']) \x7b",
    "  api[method] = (path, body, options = \x7b\x7d) => \x7b",
    "    let req = request[method](path).timeout(DEFAULT_TIMEOUT);",
    "    for (const [key, value] of Object.entries(options.headers || \x7b\x7d)) \x7b",
    "      req = req.set(key, value);",
    "    \x7d",
    "    if (body !== undefined) \x7b",
    "      req = req.send(body);",
    "    \x7d",
    "    return req;",
    "  \x7d;",
    "\x7d",
    "",
    "function expectSuccess(response, validStatuses = [200, 201, 204]) \x7b",
    "  expect(response.status).to.be.oneOf(validStatuses);",
    "\x7d",
    "",
    "function expectResponseTime(elapsedMs, maxMs = DEFAULT_TIMEOUT) \x7b",
    "  expect(elapsedMs).to.be.at.most(maxMs);",
    "\x7d"]

/-- The names that the shared module exports. -/
def exportedNames (enhanced : Bool) : List String :=
  ["request", "expect", "env", "BASE_URL", "DEFAULT_TIMEOUT"] ++
    if enhanced then ["api", "expectSuccess", "expectResponseTime"] else []

/-- The lines of the exports. -/
def exportLines (enhanced : Bool) : List String :=
  ["", "module.exports = \x7b"] ++
    (exportedNames enhanced).map (fun name => indentation 1 ++ name ++ ",") ++ ["\x7d;", ""]

/-- The text of the shared module. -/
def setupText (baseUrl : String) (environment : Option Variables) (enhanced : Bool) : String :=
  joinedLines (preambleLines ++ [baseUrlLine baseUrl] ++ clientSetupLines ++
    [environmentLine environment] ++ timeoutLines ++ (if enhanced then clientLines else []) ++
    exportLines enhanced)

end RequestSuite.Suite
