/-
Collections of requests.

* `Header`, `Body`, `Request`: a request with the script of its tests;
* `Node`, `Collection`: requests in nested groups;
* `Node.requests`, `Collection.requests`: all requests, in document order;
* `requests_append`: the requests of two lists of nodes.
-/
import RequestSuite.Keyed

namespace RequestSuite

/-- Texts under names, in order. -/
abbrev Variables := Keyed String

/-- A request header. -/
structure Header where
  key : String
  value : String := ""
  disabled : Bool := false
  deriving DecidableEq, Repr

/-- A request body. Only the mode `raw` has a meaning for the generated suite. -/
structure Body where
  mode : String := ""
  raw : Option String := none
  deriving DecidableEq, Repr

/-- A request. -/
structure Request where
  name : String
  method : String := "GET"
  url : String := ""
  body : Option Body := none
  headers : List Header := []
  /-- The test script, its lines joined by line feeds. -/
  script : Option String := none
  deriving DecidableEq, Repr

/-- A node of a collection. -/
inductive Node
  | group (name : String) (children : List Node)
  | request (request : Request)
  deriving Repr

/-- A collection: what its document says of it, and its nodes. -/
structure Collection where
  name : String := "Unnamed Collection"
  schemaUrl : Option String := none
  children : List Node := []
  bindings : Variables := []
  deriving Repr

mutual

/-- The requests of a node. -/
def Node.requests : Node → List Request
  | .group _ children => requestsOf children
  | .request r => [r]

/-- The requests of a list of nodes, in order. -/
def requestsOf : List Node → List Request
  | [] => []
  | node :: nodes => node.requests ++ requestsOf nodes

end

/-- The requests of a collection, in document order. -/
def Collection.requests (c : Collection) : List Request := requestsOf c.children

theorem requests_append (nodes nodes' : List Node) :
    requestsOf (nodes ++ nodes') = requestsOf nodes ++ requestsOf nodes' := by
  induction nodes with
  | nil => rfl
  | cons node nodes ih => simp [requestsOf, ih]

end RequestSuite
