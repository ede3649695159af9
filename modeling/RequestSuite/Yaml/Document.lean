/-
YAML documents as JSON values.

* `mergedMembers`: the members of a map, those that merge keys bring before its own;
* `checkLevels`: whether all keys and scalars of some nodes stand for values, level by level;
* `valueWithin`: the value of a node;
* `Yaml.read`: the value of a text that holds a single document.

Members under a key that is no text are left out: nothing can ask for them.
-/
import RequestSuite.Yaml.Lexer
import RequestSuite.Yaml.Node
import RequestSuite.Yaml.Scalar

namespace RequestSuite.Yaml

/-- The value of a scalar. -/
def scalarValue (text : List Char) (plain : Bool) : Except Fault Json :=
  if plain then plainValue text else .ok (.str (String.ofList text))

/-- The text of a key, if it is one. A list or a map is no key, and an equals sign is a text. -/
def keyText? : Node → Except Fault (Option String)
  | .scalar ['='] _ => .ok (some "=")
  | .scalar text plain => (scalarValue text plain).map Json.str?
  | _ => .error .keyNotScalar

/-- Whether a node is a merge key. -/
def Node.isMergeKey : Node → Bool
  | .scalar text plain => plain && text == "<<".toList
  | _ => false

mutual

/-- The members that the merge keys among some members bring, and the other members. -/
def mergedAndOwn :
    List (Node × Node) → Except Fault (List (Node × Node) × List (Node × Node))
  | [] => .ok ([], [])
  | (key, value) :: members => do
    if key.isMergeKey then
      let brought ← membersBrought value
      let (merged, own) ← mergedAndOwn members
      return (brought ++ merged, own)
    else
      let (merged, own) ← mergedAndOwn members
      return (merged, (key, value) :: own)

/-- The members that the value of a merge key brings. -/
def membersBrought : Node → Except Fault (List (Node × Node))
  | .map members => do
    let (merged, own) ← mergedAndOwn members
    return merged ++ own
  | .list items => membersOfMaps items
  | .scalar .. => .error .mergeNotMap

/-- The members of the maps of a list, the last map first. -/
def membersOfMaps : List Node → Except Fault (List (Node × Node))
  | [] => .ok []
  | .map members :: items => do
    let (merged, own) ← mergedAndOwn members
    let later ← membersOfMaps items
    return later ++ merged ++ own
  | _ :: _ => .error .mergeNotMap

end

/-- The members of a map: those that merge keys bring stand before its own, so that its own count
where both have a key. -/
def mergedMembers (members : List (Node × Node)) : Except Fault (List (Node × Node)) := do
  let (merged, own) ← mergedAndOwn members
  return merged ++ own

/-- A list or map as a list of itself, and no node for a scalar that stands for a value. -/
def collectionOf (node : Node) : Except Fault (List Node) :=
  match node with
  | .scalar text plain => (scalarValue text plain).map fun _ => []
  | _ => .ok [node]

/-- The lists and maps right inside a node whose keys and scalars there all stand for values. -/
def Node.parts : Node → Except Fault (List Node)
  | .scalar text plain => (scalarValue text plain).map fun _ => []
  | .list items => do return (← items.mapM collectionOf).flatten
  | .map members => do
    let parts ← (← mergedMembers members).mapM fun (key, value) => do
      let _ ← keyText? key
      collectionOf value
    return parts.flatten

/-- Whether all keys and scalars of some nodes with at most `steps` levels stand for values. Of
several that do not, the first on the highest level counts. -/
def checkLevels : (steps : Nat) → List Node → Except Fault Unit
  | 0, _ => .ok ()
  | steps + 1, nodes =>
    if nodes.isEmpty then .ok ()
    else do checkLevels steps (← nodes.mapM Node.parts).flatten

/-- The value of a node with at most `steps` levels. -/
def valueWithin : (steps : Nat) → Node → Except Fault Json
  | _, .scalar text plain => scalarValue text plain
  | 0, _ => .ok .null
  | steps + 1, .list items => do return .arr (← items.mapM (valueWithin steps))
  | steps + 1, .map members => do
    let fields ← (← mergedMembers members).mapM fun (key, value) => do
      let name ← keyText? key
      let value ← valueWithin steps value
      return name.map fun name => (name, value)
    return .obj (Keyed.ofList (fields.filterMap id))

/-- The value of a text. Every list and map takes a token, so the number of tokens bounds the number
of levels. -/
def read (text : List Char) : Except Fault Json := do
  let tokens := tokens text
  let root ← document tokens
  checkLevels (tokens.length + 1) [root]
  valueWithin (tokens.length + 1) root

end RequestSuite.Yaml
