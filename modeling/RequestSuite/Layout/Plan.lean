/-
Where the files of a suite go.

* `Entry`: a request, the directories its file lies in, and its parent group;
* `entriesOf`, `directoriesOf`, `folderCount`: what a list of nodes contributes;
* `Collision`, `collisionsOf`: files that more than one request maps to;
* `Plan`, `plan`: all of these for a collection;
* `map_request_entriesOf`: the entries hold the requests of the nodes, in order.
-/
import RequestSuite.Collection.Basic
import RequestSuite.Layout.FileName

namespace RequestSuite.Layout

/-- The end of every test file's name. -/
def testExtension : String := ".test.js"

/-- The directory of a group. -/
def directoryName (group : String) : String :=
  String.ofList (hyphenate group.toList "folder".toList)

/-- The file of a request. -/
def fileName (request : String) : String :=
  String.ofList (hyphenate request.toList "request".toList) ++ testExtension

/-- A request with its place in the output. -/
structure Entry where
  request : Request
  /-- The directories from the root down. -/
  directory : List String
  /-- The name of the group that holds the request. -/
  parent : Option String
  deriving DecidableEq, Repr

/-- Path segments with slashes between them. -/
def joinPath (segments : List String) : String := String.intercalate "/" segments

/-- The path of an entry's file. -/
def Entry.path (entry : Entry) : String :=
  joinPath (entry.directory ++ [fileName entry.request.name])

/-- How many directories a file lies below the root. -/
def Entry.depth (entry : Entry) : Nat := entry.directory.length

mutual

/-- The entries of a node in a directory. -/
def entriesOfNode (flatten : Bool) (directory : List String) (parent : Option String) :
    Node → List Entry
  | .group name children =>
    entriesOf flatten (if flatten then directory else directory ++ [directoryName name])
      (some name) children
  | .request r => [⟨r, directory, parent⟩]

/-- The entries of some nodes in a directory. -/
def entriesOf (flatten : Bool) (directory : List String) (parent : Option String) :
    List Node → List Entry
  | [] => []
  | node :: nodes =>
    entriesOfNode flatten directory parent node ++ entriesOf flatten directory parent nodes

end

mutual

/-- The directories of a node, each before those below it. A group without children has none. -/
def directoriesOfNode (directory : List String) : Node → List (List String)
  | .group _ [] => []
  | .group name children =>
    let own := directory ++ [directoryName name]
    own :: directoriesOf own children
  | .request _ => []

/-- The directories of some nodes, each before those below it. -/
def directoriesOf (directory : List String) : List Node → List (List String)
  | [] => []
  | node :: nodes => directoriesOfNode directory node ++ directoriesOf directory nodes

end

mutual

/-- The number of groups with children in a node. -/
def folderCountOfNode : Node → Nat
  | .group _ [] => 0
  | .group _ children => folderCount children + 1
  | .request _ => 0

/-- The number of groups with children in some nodes. -/
def folderCount : List Node → Nat
  | [] => 0
  | node :: nodes => folderCountOfNode node + folderCount nodes

end

/-- A request whose file has been claimed by an earlier one. -/
structure Collision where
  name : String
  path : String
  /-- The latest earlier request with that file. -/
  holder : String
  deriving DecidableEq, Repr

/-- The report of a collision. -/
def Collision.message (c : Collision) : String :=
  "Request \"" ++ c.name ++ "\" maps to " ++ c.path ++ ", already used by \"" ++ c.holder ++
    "\"; the later file wins"

/-- The collisions of some entries with each other and with the files held already. -/
def collisionsFrom (held : Keyed String) : List Entry → List Collision
  | [] => []
  | entry :: entries =>
    let later := collisionsFrom (held.put entry.path entry.request.name) entries
    match held.get? entry.path with
    | some holder => ⟨entry.request.name, entry.path, holder⟩ :: later
    | none => later

/-- The collisions of some entries, in order. -/
def collisionsOf (entries : List Entry) : List Collision := collisionsFrom [] entries

/-- Where everything goes. -/
structure Plan where
  entries : List Entry
  /-- The directories to create, each once and after its parent. -/
  directories : List (List String)
  /-- The number of groups with children. -/
  folders : Nat
  collisions : List Collision
  deriving Repr

/-- Plans the files of some nodes. Flattened, groups have no directories of their own. -/
def plan (flatten : Bool) (nodes : List Node) : Plan where
  entries := entriesOf flatten [] none nodes
  directories := if flatten then [] else (directoriesOf [] nodes).eraseDups
  folders := folderCount nodes
  collisions := collisionsOf (entriesOf flatten [] none nodes)

/-- The entry of a request, given by its place in document order. -/
def Plan.entry? (p : Plan) (place : Nat) : Option Entry := p.entries[place]?

mutual

/-- The entries of a node hold its requests, in order. -/
theorem map_request_entriesOfNode (flatten : Bool) (directory : List String)
    (parent : Option String) (node : Node) :
    (entriesOfNode flatten directory parent node).map Entry.request = node.requests := by
  cases node with
  | group name children =>
    simp only [entriesOfNode, Node.requests]
    exact map_request_entriesOf flatten _ _ children
  | request r => rfl

/-- The entries of some nodes hold their requests, in order. -/
theorem map_request_entriesOf (flatten : Bool) (directory : List String)
    (parent : Option String) (nodes : List Node) :
    (entriesOf flatten directory parent nodes).map Entry.request = requestsOf nodes := by
  cases nodes with
  | nil => rfl
  | cons node nodes =>
    simp only [entriesOf, requestsOf, List.map_append]
    rw [map_request_entriesOfNode flatten directory parent node,
      map_request_entriesOf flatten directory parent nodes]

end

end RequestSuite.Layout
