/-
The answers of the service.

* `Response`: a status with a JSON body;
* `readOrder`: the order in the body of a request;
* `buildOrder`: what an order comes to;
* `routeOf`: the place that the target of a request names;
* `respond`: the answer to a request.
-/
import RequestSuite.Build.Run
import RequestSuite.Service.Order
import RequestSuite.Store.Memory
import RequestSuite.Text.Blank
import RequestSuite.Text.Hex

namespace RequestSuite.Service

open Text (dropEndWhile fields hexValue?)

/-- The body of a response. -/
inductive Content
  | alive
  /-- A detail in words. -/
  | note (detail : String)
  | faults (faults : List ShapeFault)
  /-- Documents that are unusable. -/
  | refusal (message : String) (report : Report)
  /-- A call that has failed. -/
  | failure (message path : String)
  | built (outcome : Outcome) (files : Keyed String)

/-- An answer. -/
structure Response where
  status : Nat
  content : Content

/-- The directory below which a suite is built in memory. -/
def root : String := "out"

/-- The order in the body of a request, or the answer to a request without one. An empty body and
null are no body at all. -/
def readOrder (stack : Stack) (body : List Char) : Except Response Order :=
  let missing : Response := ⟨422, .faults [⟨["body"], .missing⟩]⟩
  let unread : Response := ⟨400, .note "There was an error parsing the body"⟩
  let text := if body.head? = some '\ufeff' then body.drop 1 else body
  if body.isEmpty then .error missing
  else
    match stack.overflow? (.document text), Json.read text with
    | some _, _ => .error unread
    | none, .error fault =>
      if fault.kind.isLimit then .error unread
      else .error ⟨422, .faults [⟨["body", toString (fault.position text)], .jsonInvalid⟩]⟩
    | none, .ok .null => .error missing
    | none, .ok value =>
      match Shaped.below "body" (order value) with
      | .ok order => .ok order
      | .error faults => .error ⟨422, .faults faults⟩

/-- The path of a file as seen from the root. -/
def belowRoot (path : String) : String := String.ofList (path.toList.drop (root.length + 1))

/-- What an order comes to: the files of the suite, by their paths below its root. -/
def buildOrder (stack : Stack) (o : Order) : Response :=
  let run := build stack memory o.options o.collection (o.environment.getD .null) root {}
  match run.result with
  | .ok outcome =>
    ⟨200, .built outcome (run.store.files.map fun f => (belowRoot f.1, f.2))⟩
  | .error (.collection report) =>
    ⟨422, .refusal (BuildError.collection report).message report⟩
  | .error (.environment report) =>
    ⟨422, .refusal (BuildError.environment report).message report⟩
  | .error (.emission path request cause) =>
    ⟨500, .failure (BuildError.emission path request cause).message path⟩
  | .error e => ⟨500, .note e.message⟩

/-- The parts of a path without `.` and without `..`, each of which takes back the part before it
unless that is the start of the path. -/
def withoutDots (parts : List (List Char)) : List (List Char) :=
  parts.foldl (fun kept part =>
    if part = ['.'] then kept
    else if part = ['.', '.'] then (if kept.length ≤ 1 then kept else kept.dropLast)
    else kept ++ [part]) []

/-- A text with the ASCII characters that it names by number. -/
def decodePercent : List Char → List Char
  | '%' :: a :: b :: cs =>
    match hexValue? a, hexValue? b with
    | some x, some y =>
      if x < 8 then Char.ofNat (x * 16 + y) :: decodePercent cs
      else '%' :: decodePercent (a :: b :: cs)
    | _, _ => '%' :: decodePercent (a :: b :: cs)
  | c :: cs => c :: decodePercent cs
  | [] => []

/-- A path without the host that two slashes at its start announce. -/
def withoutHost : List Char → List Char
  | '/' :: '/' :: cs => cs.dropWhile (· != '/')
  | cs => cs

/-- The path of a request's target, without slashes at its end. -/
def routeOf (target : String) : List Char :=
  let path := withoutHost (target.toList.takeWhile fun c => c != '?' && c != '#')
  let parts := fields (· == '/') (path.dropWhile (· == '/'))
  dropEndWhile (· == '/')
    ('/' :: decodePercent (List.intercalate ['/'] (withoutDots parts)))

/-- The answer to a request. The method may be written in any case. -/
def respond (stack : Stack) (method target : String) (body : List Char) : Response :=
  let method := String.ofList (method.toList.map Char.toUpper)
  let route := routeOf target
  if route = "/healthz".toList then
    if method = "GET" then ⟨200, .alive⟩ else ⟨405, .note "Method Not Allowed"⟩
  else if route = "/api/v1/compile".toList then
    if method = "POST" then
      match readOrder stack body with
      | .ok order => buildOrder stack order
      | .error response => response
    else ⟨405, .note "Method Not Allowed"⟩
  else ⟨404, .note "Not Found"⟩

end RequestSuite.Service
