/-
Planning as one walk through a tree of requests that are told apart.

* `MarkedNode`: trees whose requests carry marks, so that equal requests stay different;
  `objectsOf` lists these requests in document order, `placesOf` with the groups around them, and
  `Holds` says where one stands;
* `Walk`, `walk`: a walk through such a tree that gathers entries, directories and collisions as it
  goes and passes over groups without children;
* `Walk.add`: what a part of a tree adds to a walk; `visit_eq` and `enter_eq` show it of one step,
  `walkNodes_eq` of a tree;
* `walk_eq`: the walk comes to the plan;
* `mem_placesOf`, `lookup?_of_mem`: where the requests stand, and what is found for one of them;
* `requests_planned_once`: a plan has one entry for each request, in order, and it is found by the
  request itself.
-/
import RequestSuite.Proofs.Collisions
import RequestSuite.Proofs.DirectoryOrder

namespace RequestSuite.Layout

variable {ι : Type}

/-! ### Requests that are told apart -/

/-- A node whose requests carry marks. Requests with different marks are different, even if they say
the same. -/
inductive MarkedNode (ι : Type)
  | group (name : String) (children : List (MarkedNode ι))
  | request (mark : ι) (request : Request)

mutual

/-- A node without the marks. -/
def MarkedNode.node : MarkedNode ι → Node
  | .group name children => .group name (nodesOf children)
  | .request _ r => .request r

/-- A tree without the marks. -/
def nodesOf : List (MarkedNode ι) → List Node
  | [] => []
  | node :: nodes => node.node :: nodesOf nodes

end

mutual

/-- The requests of a node with their marks, in document order. -/
def MarkedNode.objects : MarkedNode ι → List (ι × Request)
  | .group _ children => objectsOf children
  | .request mark r => [(mark, r)]

/-- The requests of a tree with their marks, in document order. -/
def objectsOf : List (MarkedNode ι) → List (ι × Request)
  | [] => []
  | node :: nodes => node.objects ++ objectsOf nodes

end

/-- A request of a tree, and the names of the groups around it, the outermost first. -/
structure Place (ι : Type) where
  mark : ι
  request : Request
  groups : List String

mutual

/-- The places of a node's requests inside some groups, in document order. -/
def MarkedNode.places (groups : List String) : MarkedNode ι → List (Place ι)
  | .group name children => placesOf (groups ++ [name]) children
  | .request mark r => [⟨mark, r, groups⟩]

/-- The places of a tree's requests inside some groups, in document order. -/
def placesOf (groups : List String) : List (MarkedNode ι) → List (Place ι)
  | [] => []
  | node :: nodes => node.places groups ++ placesOf groups nodes

end

/-- Where a request stands in a tree: the groups called `groups`, each inside the one before it,
lead to it. -/
inductive Holds : List (MarkedNode ι) → List String → ι → Request → Prop
  | top {nodes : List (MarkedNode ι)} {mark : ι} {r : Request} (here : .request mark r ∈ nodes) :
      Holds nodes [] mark r
  | inside {nodes children : List (MarkedNode ι)} {name : String} {groups : List String} {mark : ι}
      {r : Request} (here : .group name children ∈ nodes) (inner : Holds children groups mark r) :
      Holds nodes (name :: groups) mark r

/-- The directory of some groups. Flattened, it is the root. -/
def groupDirectory (flatten : Bool) (groups : List String) : List String :=
  if flatten then [] else groups.map directoryName

/-- The entry that belongs to a place. -/
def Place.entry (flatten : Bool) (place : Place ι) : Entry :=
  ⟨place.request, groupDirectory flatten place.groups, place.groups.getLast?⟩

/-! ### The walk -/

/-- What a walk has gathered. -/
structure Walk (ι : Type) where
  entries : List (ι × Entry) := []
  /-- The paths of the directories. -/
  directories : List String := []
  folders : Nat := 0
  collisions : List Collision := []
  /-- The latest request with each path. -/
  seen : Keyed String := []

/-- A group with children is met, whose directory is `directory`. -/
def Walk.enter (flatten : Bool) (directory : List String) (w : Walk ι) : Walk ι :=
  { w with
    folders := w.folders + 1
    directories :=
      if flatten || w.directories.contains (joinPath directory) then w.directories
      else w.directories ++ [joinPath directory] }

/-- A request is met. -/
def Walk.visit (mark : ι) (entry : Entry) (w : Walk ι) : Walk ι :=
  { w with
    entries := w.entries ++ [(mark, entry)]
    collisions :=
      match w.seen.get? entry.path with
      | some holder => w.collisions ++ [⟨entry.request.name, entry.path, holder⟩]
      | none => w.collisions
    seen := w.seen.put entry.path entry.request.name }

mutual

/-- Walks through a node in a directory. -/
def walkNode (flatten : Bool) (directory : List String) (parent : Option String) :
    MarkedNode ι → Walk ι → Walk ι
  | .group _ [], w => w
  | .group name children, w =>
    let inner := if flatten then directory else directory ++ [directoryName name]
    walkNodes flatten inner (some name) children (w.enter flatten inner)
  | .request mark r, w => w.visit mark ⟨r, directory, parent⟩

/-- Walks through some nodes in a directory, one after another. -/
def walkNodes (flatten : Bool) (directory : List String) (parent : Option String) :
    List (MarkedNode ι) → Walk ι → Walk ι
  | [], w => w
  | node :: nodes, w =>
    walkNodes flatten directory parent nodes (walkNode flatten directory parent node w)

end

/-- Walks through a tree. -/
def walk (flatten : Bool) (nodes : List (MarkedNode ι)) : Walk ι :=
  walkNodes flatten [] none nodes {}

/-- The entry of a request: the first with its mark. -/
def Walk.lookup? [DecidableEq ι] (w : Walk ι) (mark : ι) : Option Entry :=
  (w.entries.find? fun entry => entry.1 = mark).map Prod.snd

/-! ### What a walk adds -/

/-- A walk that has met some more requests, directories and groups with children. -/
def Walk.add (entries : List (ι × Entry)) (directories : List String) (folders : Nat)
    (w : Walk ι) : Walk ι where
  entries := w.entries ++ entries
  directories := withDirectories directories w.directories
  folders := w.folders + folders
  collisions := w.collisions ++ collisionsFrom w.seen (entries.map Prod.snd)
  seen := heldBy w.seen (entries.map Prod.snd)

lemma add_nothing (w : Walk ι) : w.add [] [] 0 = w := by
  simp [Walk.add, withDirectories, collisionsFrom, heldBy, Keyed.putAll]

/-- What one part of a tree adds and what another adds after it. -/
lemma add_add (entries entries' : List (ι × Entry)) (directories directories' : List String)
    (folders folders' : Nat) (w : Walk ι) :
    (w.add entries directories folders).add entries' directories' folders' =
      w.add (entries ++ entries') (directories ++ directories') (folders + folders') := by
  simp only [Walk.add, Walk.mk.injEq, List.append_assoc, List.map_append, collisionsFrom_append,
    true_and]
  refine ⟨?_, Nat.add_assoc _ _ _, ?_⟩
  · rw [withDirectories, withDirectories, withDirectories, List.foldl_append]
  · rw [heldBy, heldBy, heldBy, Keyed.putAll, Keyed.putAll, Keyed.putAll, List.map_append,
      List.foldl_append]

lemma visit_eq (mark : ι) (entry : Entry) (w : Walk ι) :
    w.visit mark entry = w.add [(mark, entry)] [] 0 := by
  rw [Walk.visit, Walk.add]
  simp only [withDirectories, heldBy, Keyed.putAll, collisionsFrom, List.map_cons, List.map_nil,
    List.foldl_cons, List.foldl_nil, Nat.add_zero]
  cases w.seen.get? entry.path <;> simp

lemma enter_eq (flatten : Bool) (directory : List String) (w : Walk ι) :
    w.enter flatten directory =
      w.add [] (if flatten then [] else [joinPath directory]) 1 := by
  rw [Walk.enter, Walk.add]
  cases flatten <;> simp [withDirectories, heldBy, Keyed.putAll, collisionsFrom]

lemma groupDirectory_nil (flatten : Bool) : groupDirectory flatten [] = [] := by
  cases flatten <;> rfl

lemma groupDirectory_concat (flatten : Bool) (groups : List String) (name : String) :
    (if flatten then groupDirectory flatten groups
      else groupDirectory flatten groups ++ [directoryName name]) =
      groupDirectory flatten (groups ++ [name]) := by
  cases flatten <;> simp [groupDirectory]

/-- The entries of some places, with their marks. -/
def entriesAt (flatten : Bool) (places : List (Place ι)) : List (ι × Entry) :=
  places.map fun place => (place.mark, place.entry flatten)

mutual

/-- What a node adds to a walk. -/
lemma walkNode_eq (flatten : Bool) (groups : List String) (node : MarkedNode ι) (w : Walk ι) :
    walkNode flatten (groupDirectory flatten groups) groups.getLast? node w =
      w.add (entriesAt flatten (node.places groups))
        (if flatten then []
          else (directoriesOfNode (groupDirectory flatten groups) node.node).map joinPath)
        (folderCountOfNode node.node) := by
  cases node with
  | group name children =>
      cases children with
      | nil =>
          rw [walkNode, MarkedNode.places, placesOf, entriesAt, List.map_nil, MarkedNode.node,
            nodesOf, directoriesOfNode, folderCountOfNode, List.map_nil, ite_self, add_nothing]
      | cons child others =>
          have hfilled : nodesOf (child :: others) ≠ [] := by simp [nodesOf]
          have hlast : some name = (groups ++ [name]).getLast? := by simp
          have hcount : folderCountOfNode (.group name (nodesOf (child :: others))) =
              1 + folderCount (nodesOf (child :: others)) := Nat.add_comm _ _
          rw [walkNode, groupDirectory_concat, hlast,
            walkNodes_eq flatten (groups ++ [name]) (child :: others), enter_eq, add_add,
            MarkedNode.places, MarkedNode.node, hcount, directoriesOfNode_group hfilled]
          · cases flatten <;> simp [groupDirectory]
          · simp
  | request mark r =>
      rw [walkNode, visit_eq]
      cases flatten <;> rfl

/-- **What a tree adds to a walk**: the entries at its places, its directories, and the number of
its groups with children. -/
lemma walkNodes_eq (flatten : Bool) (groups : List String) (nodes : List (MarkedNode ι))
    (w : Walk ι) :
    walkNodes flatten (groupDirectory flatten groups) groups.getLast? nodes w =
      w.add (entriesAt flatten (placesOf groups nodes))
        (if flatten then []
          else (directoriesOf (groupDirectory flatten groups) (nodesOf nodes)).map joinPath)
        (folderCount (nodesOf nodes)) := by
  cases nodes with
  | nil =>
      rw [walkNodes, placesOf, entriesAt, List.map_nil, nodesOf, directoriesOf, folderCount,
        List.map_nil, ite_self, add_nothing]
  | cons node nodes =>
      rw [walkNodes, walkNode_eq flatten groups node, walkNodes_eq flatten groups nodes, add_add,
        placesOf, nodesOf, directoriesOf, folderCount]
      cases flatten <;> simp [entriesAt]

end

/-! ### The walk and the plan -/

mutual

/-- The planned entries of a node are those of its places. -/
lemma entriesOfNode_eq (flatten : Bool) (groups : List String) (node : MarkedNode ι) :
    entriesOfNode flatten (groupDirectory flatten groups) groups.getLast? node.node =
      (node.places groups).map (Place.entry flatten) := by
  cases node with
  | group name children =>
      have hlast : some name = (groups ++ [name]).getLast? := by simp
      rw [MarkedNode.node, entriesOfNode, groupDirectory_concat, hlast, MarkedNode.places,
        entriesOf_eq flatten (groups ++ [name]) children]
  | request mark r => rfl

/-- The planned entries of a tree are those of its places. -/
lemma entriesOf_eq (flatten : Bool) (groups : List String) (nodes : List (MarkedNode ι)) :
    entriesOf flatten (groupDirectory flatten groups) groups.getLast? (nodesOf nodes) =
      (placesOf groups nodes).map (Place.entry flatten) := by
  cases nodes with
  | nil => rfl
  | cons node nodes =>
      rw [nodesOf, entriesOf, entriesOfNode_eq flatten groups node,
        entriesOf_eq flatten groups nodes, placesOf, List.map_append]

end

/-- Directories gathered one after another are those of the list without repetitions. -/
lemma withDirectories_nil (directories : List String) :
    withDirectories directories [] = directories.eraseDups := by
  induction directories using List.reverseRecOn with
  | nil => rfl
  | append_singleton directories directory ih =>
      have hknown : (withDirectories directories []).contains directory = true ↔
          directory ∈ directories := by
        rw [List.contains_iff_mem, mem_withDirectories]
        simp
      have hstep : withDirectories (directories ++ [directory]) [] =
          if (withDirectories directories []).contains directory then withDirectories directories []
          else withDirectories directories [] ++ [directory] := by
        rw [withDirectories, List.foldl_append]
        rfl
      rw [hstep, eraseDups_concat, ← ih]
      split_ifs with h h' h'
      · rfl
      · exact absurd (hknown.mp h) h'
      · exact absurd (hknown.mpr h') h
      · rfl

lemma eraseDups_map_joinPath (nodes : List Node) :
    ((directoriesOf [] nodes).map joinPath).eraseDups =
      (plan false nodes).directories.map joinPath := by
  have hplanned : ∀ directory ∈ directoriesOf [] nodes,
      directory ∈ (plan false nodes).directories := fun directory h => List.mem_eraseDups.mpr h
  exact eraseDups_map fun directory h directory' h' heq =>
    joinPath_inj (hplanned directory h) (hplanned directory' h') heq

lemma map_entriesAt (flatten : Bool) (nodes : List (MarkedNode ι)) :
    (entriesAt flatten (placesOf [] nodes)).map Prod.snd =
      (plan flatten (nodesOf nodes)).entries := by
  have hentries := entriesOf_eq flatten [] nodes
  rw [groupDirectory_nil] at hentries
  rw [entriesAt, List.map_map]
  exact hentries.symm

/-- **The walk comes to the plan**, though it gathers everything as it goes. -/
lemma walk_eq (flatten : Bool) (nodes : List (MarkedNode ι)) :
    walk flatten nodes =
      { entries := entriesAt flatten (placesOf [] nodes)
        directories := (plan flatten (nodesOf nodes)).directories.map joinPath
        folders := (plan flatten (nodesOf nodes)).folders
        collisions := (plan flatten (nodesOf nodes)).collisions
        seen := heldBy [] (plan flatten (nodesOf nodes)).entries } := by
  have hwalk := walkNodes_eq flatten [] nodes {}
  rw [groupDirectory_nil] at hwalk
  refine hwalk.trans ?_
  rw [Walk.add, map_entriesAt, withDirectories_nil]
  simp only [List.nil_append, Nat.zero_add, Walk.mk.injEq, true_and]
  refine ⟨?_, rfl, rfl, trivial⟩
  cases flatten with
  | true => rfl
  | false => exact eraseDups_map_joinPath (nodesOf nodes)

/-! ### Where the requests stand -/

/-- A request of a tree stands in its first node or in the others. -/
lemma holds_cons {node : MarkedNode ι} {nodes : List (MarkedNode ι)} {groups : List String}
    {mark : ι} {r : Request} :
    Holds (node :: nodes) groups mark r ↔
      Holds [node] groups mark r ∨ Holds nodes groups mark r := by
  constructor
  · rintro (here | ⟨here, inner⟩)
    · exact (List.mem_cons.mp here).imp (fun heq => .top (by simp [heq])) .top
    · exact (List.mem_cons.mp here).imp (fun heq => .inside (by simp [heq]) inner)
        (.inside · inner)
  · rintro ((here | ⟨here, inner⟩) | (here | ⟨here, inner⟩))
    · exact .top (List.mem_cons.mpr (.inl (List.mem_singleton.mp here)))
    · exact .inside (List.mem_cons.mpr (.inl (List.mem_singleton.mp here))) inner
    · exact .top (List.mem_cons_of_mem _ here)
    · exact .inside (List.mem_cons_of_mem _ here) inner

/-- The requests in a group stand below it. -/
lemma holds_group {name : String} {children : List (MarkedNode ι)} {groups : List String}
    {mark : ι} {r : Request} :
    Holds [.group name children] groups mark r ↔
      ∃ inner, groups = name :: inner ∧ Holds children inner mark r := by
  constructor
  · rintro (here | ⟨here, inner⟩)
    · simp at here
    · obtain ⟨rfl, rfl⟩ := MarkedNode.group.inj (List.mem_singleton.mp here)
      exact ⟨_, rfl, inner⟩
  · rintro ⟨inner, rfl, h⟩
    exact .inside (List.mem_singleton_self _) h

/-- A request alone stands at the top. -/
lemma holds_request {mark mark' : ι} {r r' : Request} {groups : List String} :
    Holds [.request mark r] groups mark' r' ↔ groups = [] ∧ mark' = mark ∧ r' = r := by
  constructor
  · rintro (here | ⟨here, -⟩)
    · obtain ⟨rfl, rfl⟩ := MarkedNode.request.inj (List.mem_singleton.mp here)
      exact ⟨rfl, rfl, rfl⟩
    · simp at here
  · rintro ⟨rfl, rfl, rfl⟩
    exact .top (List.mem_singleton_self _)

mutual

/-- The places of a node's requests say where they stand. -/
lemma mem_places {base : List String} (node : MarkedNode ι) {place : Place ι} :
    place ∈ node.places base ↔
      ∃ groups, Holds [node] groups place.mark place.request ∧ place.groups = base ++ groups := by
  cases node with
  | group name children =>
      rw [MarkedNode.places, mem_placesOf children]
      constructor
      · rintro ⟨groups, h, heq⟩
        exact ⟨name :: groups, holds_group.mpr ⟨groups, rfl, h⟩, by simpa using heq⟩
      · rintro ⟨groups, h, heq⟩
        obtain ⟨inner, rfl, hinner⟩ := holds_group.mp h
        exact ⟨inner, hinner, by simpa using heq⟩
  | request mark r =>
      obtain ⟨mark', r', groups'⟩ := place
      rw [MarkedNode.places, List.mem_singleton, Place.mk.injEq]
      constructor
      · rintro ⟨rfl, rfl, rfl⟩
        exact ⟨[], holds_request.mpr ⟨rfl, rfl, rfl⟩, (List.append_nil _).symm⟩
      · rintro ⟨groups, h, rfl⟩
        obtain ⟨rfl, hmark, hrequest⟩ := holds_request.mp h
        exact ⟨hmark, hrequest, List.append_nil _⟩

/-- The places of a tree's requests say where they stand. -/
lemma mem_placesOf {base : List String} (nodes : List (MarkedNode ι)) {place : Place ι} :
    place ∈ placesOf base nodes ↔
      ∃ groups, Holds nodes groups place.mark place.request ∧ place.groups = base ++ groups := by
  cases nodes with
  | nil =>
      rw [placesOf]
      constructor
      · simp
      · rintro ⟨groups, here | ⟨here, -⟩, -⟩ <;> simp at here
  | cons node nodes =>
      rw [placesOf, List.mem_append, mem_places node, mem_placesOf nodes, ← exists_or]
      exact exists_congr fun groups => by rw [← or_and_right, ← holds_cons]

end

mutual

lemma map_places (groups : List String) (node : MarkedNode ι) :
    (node.places groups).map (fun place => (place.mark, place.request)) = node.objects := by
  cases node with
  | group name children => exact map_placesOf (groups ++ [name]) children
  | request mark r => rfl

lemma map_placesOf (groups : List String) (nodes : List (MarkedNode ι)) :
    (placesOf groups nodes).map (fun place => (place.mark, place.request)) = objectsOf nodes := by
  cases nodes with
  | nil => rfl
  | cons node nodes =>
      rw [placesOf, List.map_append, map_places groups node, map_placesOf groups nodes, objectsOf]

end

/-! ### Finding the entry of a request -/

section Lookup

variable [DecidableEq ι]

/-- What is found for a mark is the entry in the first place with the mark. -/
lemma lookup?_eq (w : Walk ι) (mark : ι) :
    w.lookup? mark = (w.entries.map Prod.snd)[(w.entries.map Prod.fst).idxOf mark]? := by
  rw [Walk.lookup?]
  induction w.entries with
  | nil => rfl
  | cons entry entries ih =>
      by_cases h : entry.1 = mark
      · simp [h]
      · simp [h, List.idxOf_cons_ne, ih]

/-- With a mark for each entry, each entry is found. -/
lemma lookup?_of_mem {w : Walk ι} (hmarks : (w.entries.map Prod.fst).Nodup) {mark : ι}
    {entry : Entry} (h : (mark, entry) ∈ w.entries) : w.lookup? mark = some entry := by
  obtain ⟨i, hi, heq⟩ := List.getElem_of_mem h
  have hlt : i < (w.entries.map Prod.fst).length := by rwa [List.length_map]
  have hmark : (w.entries.map Prod.fst)[i] = mark := by simp [heq]
  have hplace : (w.entries.map Prod.fst).idxOf mark = i := by
    rw [← hmark, hmarks.idxOf_getElem]
  rw [lookup?_eq, hplace, List.getElem?_map, List.getElem?_eq_getElem hi, heq]
  rfl

/-! ### Plans -/

/-- What a walk through a tree and the plan for it have to do with each other and with the requests
of the tree. -/
structure PlannedOnce (flatten : Bool) (nodes : List (MarkedNode ι)) (w : Walk ι) (p : Plan) :
    Prop where
  /-- The walk comes to the plan. -/
  entries : w.entries.map Prod.snd = p.entries
  directories : w.directories = p.directories.map joinPath
  folders : w.folders = p.folders
  collisions : w.collisions = p.collisions
  /-- The entries hold the requests of the tree, each once and in document order. -/
  objects : (w.entries.map fun (mark, entry) => (mark, entry.request)) = objectsOf nodes
  requests : p.entries.map Entry.request = requestsOf (nodesOf nodes)
  /-- Each has the parent and the path of the place where its request stands. -/
  places : (w.entries.map fun (mark, entry) => (mark, entry.request, entry.parent, entry.path)) =
    (placesOf [] nodes).map fun place =>
      (place.mark, place.request, place.groups.getLast?,
        joinPath (groupDirectory flatten place.groups ++ [fileName place.request.name]))
  holds : ∀ place, place ∈ placesOf [] nodes ↔ Holds nodes place.groups place.mark place.request
  /-- What is found for a request is the entry for its place, if no other request is the same. -/
  lookup : ((objectsOf nodes).map Prod.fst).Nodup → ∀ groups mark r, Holds nodes groups mark r →
    w.lookup? mark = some ⟨r, groupDirectory flatten groups, groups.getLast?⟩
  /-- It is the entry at the number that the request has in document order. -/
  lookup_eq : ∀ mark, w.lookup? mark = p.entry? (((objectsOf nodes).map Prod.fst).idxOf mark)

/-- **Planning loses no request and plans none twice.** The walk through a tree gives the plan for
it. The plan has one entry for each request, in document order; its parent is the innermost group
around the request, and its path has the directories of the groups around it, or none if all is
flattened, before its own file name. The entry that is found for a request is its own, even if
others say the same. -/
theorem requests_planned_once (flatten : Bool) (nodes : List (MarkedNode ι)) :
    PlannedOnce flatten nodes (walk flatten nodes) (plan flatten (nodesOf nodes)) := by
  have hplan : (entriesAt flatten (placesOf [] nodes)).map Prod.snd =
      (plan flatten (nodesOf nodes)).entries := map_entriesAt flatten nodes
  have hobjects : ((entriesAt flatten (placesOf [] nodes)).map fun (mark, entry) =>
      (mark, entry.request)) = objectsOf nodes := by
    rw [entriesAt, List.map_map, ← map_placesOf [] nodes]
    rfl
  have hmarks : (entriesAt flatten (placesOf [] nodes)).map Prod.fst =
      (objectsOf nodes).map Prod.fst := by
    rw [← hobjects, List.map_map]
    rfl
  have hholds : ∀ place, place ∈ placesOf [] nodes ↔
      Holds nodes place.groups place.mark place.request := by
    intro place
    rw [mem_placesOf]
    simp
  rw [walk_eq]
  refine ⟨hplan, rfl, rfl, rfl, hobjects, map_request_entriesOf flatten [] none (nodesOf nodes), ?_,
    hholds, ?_, ?_⟩
  · rw [entriesAt, List.map_map]
    rfl
  · intro hnodup groups mark r h
    exact lookup?_of_mem (hmarks ▸ hnodup)
      (List.mem_map.mpr ⟨⟨mark, r, groups⟩, (hholds _).mpr h, rfl⟩)
  · intro mark
    rw [lookup?_eq, hplan, hmarks]
    rfl

end Lookup

/-- Three requests that say the same, two of them in one group. -/
def equalRequests : List (MarkedNode Nat) :=
  [.group "Users" [.request 0 { name := "List" }, .request 1 { name := "List" }],
    .group "Teams" [.group "Old" [], .request 2 { name := "List" }]]

/-- Of three requests that say the same, the last is found in its own group. -/
theorem equal_requests_found :
    ((objectsOf equalRequests).map Prod.fst).Nodup ∧
      Holds equalRequests ["Teams"] 2 { name := "List" } ∧
      (walk false equalRequests).lookup? 2 =
        some ⟨{ name := "List" }, ["teams"], some "Teams"⟩ := by
  have hmarks : ((objectsOf equalRequests).map Prod.fst).Nodup := by decide
  have hholds : Holds equalRequests ["Teams"] 2 { name := "List" } :=
    .inside (List.mem_cons_of_mem _ (List.mem_singleton_self _)) (.top (by simp))
  have hdirectory : groupDirectory false ["Teams"] = ["teams"] := by decide +kernel
  have hfound := (requests_planned_once false equalRequests).lookup hmarks _ _ _ hholds
  rw [hdirectory] at hfound
  exact ⟨hmarks, hholds, hfound⟩

end RequestSuite.Layout
