/-
The nodes of a YAML document.

* `Node`: scalars, lists and maps;
* `Node.empty`: the node that stands where nothing is written;
* `node`, `blockList`, `blockMap`, `flowList`, `flowMap` and their companions: nodes at the start of
  some tokens, within a bound on the number of steps;
* `faultAt`: what is wrong where no node can start or go on;
* `document`: the single document of a token list.

Of four steps in a row one reads a token, so a bound of four for each token is never reached.
-/
import RequestSuite.Yaml.Token

namespace RequestSuite.Yaml

/-- A node. -/
inductive Node
  | scalar (text : List Char) (plain : Bool)
  | list (items : List Node)
  | map (members : List (Node × Node))
  deriving Repr

/-- The node that stands where nothing is written. -/
def Node.empty : Node := .scalar [] true

/-- What is read from some tokens, and the tokens after it. -/
abbrev Step (α : Type) := Except Fault (α × List Token)

/-- The tokens before which a value of a block map is left out. -/
def endsBlockValue : List Token → Bool
  | .key :: _ | .value :: _ | .blockEnd :: _ => true
  | _ => false

/-- The tokens before which an entry of a block list is left out. -/
def endsEntry : List Token → Bool
  | .entry :: _ | .blockEnd :: _ => true
  | _ => false

/-- The tokens before which a key or value inside a flow list is left out. -/
def endsFlowListValue : List Token → Bool
  | .value :: _ | .comma :: _ | .flowListEnd :: _ => true
  | _ => false

/-- The tokens before which a key or value of a flow map is left out. -/
def endsFlowMapValue : List Token → Bool
  | .value :: _ | .comma :: _ | .flowMapEnd :: _ => true
  | _ => false

/-- What is wrong where some tokens fit nowhere. -/
def faultAt : List Token → Fault
  | .unreadable fault :: _ => fault
  | _ => .unexpectedToken

mutual

/-- A node. Block collections may start only where `block` says so. -/
def node (block : Bool) : (steps : Nat) → List Token → Step Node
  | 0, _ => .error .unexpectedToken
  | steps + 1, tokens =>
    match tokens with
    | .scalar text plain :: rest => .ok (.scalar text plain, rest)
    | .flowList :: .flowListEnd :: rest => .ok (.list [], rest)
    | .flowList :: rest => flowList steps [] rest
    | .flowMap :: .flowMapEnd :: rest => .ok (.map [], rest)
    | .flowMap :: rest => flowMap steps [] rest
    | .blockList :: rest => if block then blockList steps [] rest else .error .unexpectedToken
    | .blockMap :: rest => if block then blockMap steps [] rest else .error .unexpectedToken
    | _ => .error (faultAt tokens)

/-- The entries of a block list. -/
def blockList : (steps : Nat) → (acc : List Node) → List Token → Step Node
  | 0, _, _ => .error .unexpectedToken
  | steps + 1, acc, tokens =>
    match tokens with
    | .blockEnd :: rest => .ok (.list acc.reverse, rest)
    | .entry :: rest =>
      if endsEntry rest then blockList steps (.empty :: acc) rest
      else
        match node true steps rest with
        | .ok (item, rest) => blockList steps (item :: acc) rest
        | .error fault => .error fault
    | _ => .error (faultAt tokens)

/-- The entries of a list that stands in a block map without an indentation of its own. -/
def flushList : (steps : Nat) → (acc : List Node) → List Token → Step Node
  | 0, _, _ => .error .unexpectedToken
  | steps + 1, acc, tokens =>
    match tokens with
    | .entry :: rest =>
      if endsEntry rest || endsBlockValue rest then flushList steps (.empty :: acc) rest
      else
        match node true steps rest with
        | .ok (item, rest) => flushList steps (item :: acc) rest
        | .error fault => .error fault
    | _ => .ok (.list acc.reverse, tokens)

/-- A key or value of a block map, which may be left out. -/
def blockValue : (steps : Nat) → List Token → Step Node
  | 0, _ => .error .unexpectedToken
  | steps + 1, tokens =>
    if endsBlockValue tokens then .ok (.empty, tokens)
    else
      match tokens with
      | .entry :: _ => flushList steps [] tokens
      | _ => node true steps tokens

/-- The members of a block map. -/
def blockMap : (steps : Nat) → (acc : List (Node × Node)) → List Token → Step Node
  | 0, _, _ => .error .unexpectedToken
  | steps + 1, acc, tokens =>
    match tokens with
    | .blockEnd :: rest => .ok (.map acc.reverse, rest)
    | .key :: rest =>
      match blockValue steps rest with
      | .error fault => .error fault
      | .ok (key, .value :: rest) =>
        match blockValue steps rest with
        | .error fault => .error fault
        | .ok (value, rest) => blockMap steps ((key, value) :: acc) rest
      | .ok (key, rest) => blockMap steps ((key, .empty) :: acc) rest
    | _ => .error (faultAt tokens)

/-- The entries of a flow list from an entry on. A key makes an entry a map of one member. -/
def flowList : (steps : Nat) → (acc : List Node) → List Token → Step Node
  | 0, _, _ => .error .unexpectedToken
  | steps + 1, acc, tokens =>
    match flowItem steps tokens with
    | .error fault => .error fault
    | .ok (item, .flowListEnd :: rest) => .ok (.list (item :: acc).reverse, rest)
    | .ok (item, .comma :: .flowListEnd :: rest) => .ok (.list (item :: acc).reverse, rest)
    | .ok (item, .comma :: rest) => flowList steps (item :: acc) rest
    | .ok (_, rest) => .error (faultAt rest)

/-- An entry of a flow list. -/
def flowItem : (steps : Nat) → List Token → Step Node
  | 0, _ => .error .unexpectedToken
  | steps + 1, tokens =>
    match tokens with
    | .key :: rest =>
      match if endsFlowListValue rest then .ok (.empty, rest) else node false steps rest with
      | .error fault => .error fault
      | .ok (key, .value :: rest) =>
        if endsFlowListValue rest then .ok (.map [(key, .empty)], rest)
        else
          (node false steps rest).map fun (value, rest) => (.map [(key, value)], rest)
      | .ok (key, rest) => .ok (.map [(key, .empty)], rest)
    | _ => node false steps tokens

/-- The members of a flow map from a member on. -/
def flowMap : (steps : Nat) → (acc : List (Node × Node)) → List Token → Step Node
  | 0, _, _ => .error .unexpectedToken
  | steps + 1, acc, tokens =>
    match flowMember steps tokens with
    | .error fault => .error fault
    | .ok (member, .flowMapEnd :: rest) => .ok (.map (member :: acc).reverse, rest)
    | .ok (member, .comma :: .flowMapEnd :: rest) => .ok (.map (member :: acc).reverse, rest)
    | .ok (member, .comma :: rest) => flowMap steps (member :: acc) rest
    | .ok (_, rest) => .error (faultAt rest)

/-- A member of a flow map. -/
def flowMember : (steps : Nat) → List Token → Step (Node × Node)
  | 0, _ => .error .unexpectedToken
  | steps + 1, tokens =>
    match tokens with
    | .key :: rest =>
      match if endsFlowMapValue rest then .ok (.empty, rest) else node false steps rest with
      | .error fault => .error fault
      | .ok (key, .value :: rest) =>
        if endsFlowMapValue rest then .ok ((key, .empty), rest)
        else (node false steps rest).map fun (value, rest) => ((key, value), rest)
      | .ok (key, rest) => .ok ((key, .empty), rest)
    | _ => (node false steps tokens).map fun (key, rest) => ((key, .empty), rest)

end

/-- Whether a document starts, ends or is left out before some tokens. -/
def endsContent : List Token → Bool
  | [] | .documentStart :: _ | .documentEnd :: _ => true
  | _ => false

/-- The tokens without the marks of document ends at the start. -/
def skipEnds : List Token → List Token
  | .documentEnd :: rest => skipEnds rest
  | tokens => tokens

/-- The single document of a token list, and the empty node for no document. -/
def document (tokens : List Token) : Except Fault Node :=
  let steps := 4 * tokens.length + 4
  let content : Step Node := match tokens with
    | [] => .ok (.empty, [])
    | .documentStart :: rest =>
      if endsContent rest then .ok (.empty, rest) else node true steps rest
    | _ => node true steps tokens
  match content with
  | .error fault => .error fault
  | .ok (root, rest) =>
    match skipEnds rest with
    | [] => .ok root
    | .documentStart :: _ => .error .severalDocuments
    | rest => .error (faultAt rest)

end RequestSuite.Yaml
