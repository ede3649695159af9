/-
Files that more than one request maps to.

* `heldBy`: which request holds each path after some entries;
* `collisionsFrom_append`: the collisions of some entries and of others after them;
* `latest?`, `collisionAfter?`: the last entry with a path, and what is reported of an entry that
  comes after others;
* `collisionsOf_eq`: the collisions of some entries, one entry after another;
* `length_collisionsOf_add_card`: how many there are;
* `overwrites_reported`: a plan reports every file that is written again, and so does a build.
-/
import RequestSuite.Proofs.Execution
import RequestSuite.Proofs.KeyedWrites

namespace RequestSuite

namespace Layout

/-! ### Who holds a path -/

/-- The paths held after some more entries, each with the name of its latest request. -/
def heldBy (held : Keyed String) (entries : List Entry) : Keyed String :=
  held.putAll (entries.map fun entry => (entry.path, entry.request.name))

/-- The last of some entries with a path. -/
def latest? (entries : List Entry) (path : String) : Option Entry :=
  entries.findRev? fun entry => entry.path == path

/-- A path is held by the last entry with it. -/
lemma get?_heldBy (entries : List Entry) (path : String) :
    (heldBy [] entries).get? path = (latest? entries path).map fun entry => entry.request.name := by
  have hcomp : ((fun entry : String × String => entry.1 == path) ∘
      fun entry : Entry => (entry.path, entry.request.name)) =
      fun entry => entry.path == path := rfl
  rw [heldBy, Keyed.get?_putAll, latest?, List.findRev?_eq_find?_reverse, ← List.map_reverse,
    List.find?_map, hcomp, Option.map_map, List.findRev?_eq_find?_reverse]
  exact Option.or_none

lemma latest?_eq_none_iff {entries : List Entry} {path : String} :
    latest? entries path = none ↔ path ∉ entries.map Entry.path := by
  simp [latest?, List.findRev?_eq_find?_reverse]

/-! ### One entry after another -/

/-- The collisions of some entries come before those of the entries after them. -/
lemma collisionsFrom_append (held : Keyed String) (entries entries' : List Entry) :
    collisionsFrom held (entries ++ entries') =
      collisionsFrom held entries ++ collisionsFrom (heldBy held entries) entries' := by
  induction entries generalizing held with
  | nil => rfl
  | cons entry entries ih =>
      rw [List.cons_append, collisionsFrom, collisionsFrom, ih]
      cases held.get? entry.path <;> rfl

/-- What is reported of an entry that comes after some others. -/
def collisionAfter? (earlier : List Entry) (entry : Entry) : Option Collision :=
  (latest? earlier entry.path).map fun holder =>
    ⟨entry.request.name, entry.path, holder.request.name⟩

lemma collisionsOf_concat (entries : List Entry) (entry : Entry) :
    collisionsOf (entries ++ [entry]) =
      collisionsOf entries ++ (collisionAfter? entries entry).toList := by
  rw [collisionsOf, collisionsFrom_append, collisionsFrom, get?_heldBy, collisionAfter?]
  cases latest? entries entry.path <;> rfl

/-- **The collisions of some entries**: one for each that has the path of an earlier one, in order,
with the latest of the earlier ones. -/
lemma collisionsOf_eq (entries : List Entry) :
    collisionsOf entries =
      entries.zipIdx.filterMap fun (entry, i) => collisionAfter? (entries.take i) entry := by
  induction entries using List.reverseRecOn with
  | nil => rfl
  | append_singleton entries entry ih =>
      have hearlier : ∀ indexed ∈ entries.zipIdx,
          collisionAfter? ((entries ++ [entry]).take indexed.2) indexed.1 =
            collisionAfter? (entries.take indexed.2) indexed.1 := by
        intro indexed hi
        obtain ⟨-, hlt, -⟩ := List.mem_zipIdx hi
        rw [List.take_append_of_le_length (by omega)]
      rw [collisionsOf_concat, ih, List.zipIdx_append, List.filterMap_append,
        List.filterMap_congr hearlier]
      cases hlast : collisionAfter? entries entry <;> simp [hlast]

/-- **The number of collisions** and that of different paths are together that of the entries. -/
lemma length_collisionsOf_add_card (entries : List Entry) :
    (collisionsOf entries).length + (entries.map Entry.path).toFinset.card = entries.length := by
  induction entries using List.reverseRecOn with
  | nil => rfl
  | append_singleton entries entry ih =>
      rw [collisionsOf_concat, collisionAfter?, List.map_append, List.map_singleton,
        List.toFinset_append, List.toFinset_cons, List.toFinset_nil, Finset.union_insert,
        Finset.union_empty, List.length_append, List.length_append, List.length_singleton]
      cases hlatest : latest? entries entry.path with
      | none =>
          have hnew := latest?_eq_none_iff.mp hlatest
          rw [Finset.card_insert_of_notMem (by simpa using hnew), Option.map_none,
            Option.toList_none, List.length_nil]
          omega
      | some holder =>
          have hknown : entry.path ∈ entries.map Entry.path := by
            by_contra hnew
            rw [latest?_eq_none_iff.mpr hnew] at hlatest
            cases hlatest
          rw [Finset.insert_eq_of_mem (by simpa using hknown), Option.map_some, Option.toList_some,
            List.length_singleton]
          omega

/-- What a plan says of the files that are written again. -/
structure Reported (p : Plan) : Prop where
  /-- Each entry that has the path of an earlier one is reported once, in order, with the latest of
  the earlier ones. -/
  messages : p.collisions.map Collision.message =
    p.entries.zipIdx.filterMap fun (entry, i) =>
      (latest? (p.entries.take i) entry.path).map fun holder =>
        "Request \"" ++ entry.request.name ++ "\" maps to " ++ entry.path ++
          ", already used by \"" ++ holder.request.name ++ "\"; the later file wins"
  /-- There are as many reports as entries beyond the first with each path. -/
  count : p.collisions.length + (p.entries.map Entry.path).toFinset.card = p.entries.length

/-- Every plan reports the files that are written again. -/
lemma reported_plan (flatten : Bool) (nodes : List Node) : Reported (plan flatten nodes) where
  messages := by
    have hcollisions : (plan flatten nodes).collisions =
        collisionsOf (plan flatten nodes).entries := rfl
    rw [hcollisions, collisionsOf_eq, List.map_filterMap]
    simp only [collisionAfter?, Option.map_map]
    rfl
  count := length_collisionsOf_add_card _

end Layout

/-- **Every file that is written again is reported.** A plan has one message for each entry whose
path an earlier entry has, in the order of the entries; it names the request of the entry, the path
and the latest earlier request with that path, so that there are as many messages as entries less
different paths. They are the last warnings of every build that comes to a report. -/
theorem overwrites_reported :
    (∀ flatten nodes, Layout.Reported (Layout.plan flatten nodes)) ∧
      ∀ {σ : Type} (stack : Stack) (backend : Backend σ) (options : Options)
        (collection environment : Json) (root : String) (s : σ) (outcome : Outcome),
        (build stack backend options collection environment root s).result = .ok outcome →
          (planOf options collection).collisions.map Layout.Collision.message <:+
            outcome.warnings.map Warning.message := by
  refine ⟨Layout.reported_plan, ?_⟩
  intro σ stack backend options collection environment root s outcome h
  obtain ⟨-, -, rfl⟩ := of_result_ok h
  have hmessages : (planOf options collection).collisions.map Layout.Collision.message =
      ((planOf options collection).collisions.map Warning.collision).map Warning.message := by
    rw [List.map_map]
    rfl
  rw [hmessages]
  exact (List.suffix_append _ _).map Warning.message

/-- A collection of two groups that share a directory, with three requests that share a file. -/
def sharedFile : Json :=
  .obj [("info", .obj [("name", .str "API"), ("schema", .str "v2")]),
    ("item", .arr [
      .obj [("name", .str "Users"), ("item", .arr [
        .obj [("name", .str "Get"), ("request", .str "https://host/a")]])],
      .obj [("name", .str "users!"), ("item", .arr [
        .obj [("name", .str "get"), ("request", .str "https://host/b")],
        .obj [("name", .str "GET"), ("request", .str "https://host/c")]])]])]

/-- What is reported of them. -/
def sharedFileMessages : List String :=
  ["Request \"get\" maps to users/get.test.js, already used by \"Get\"; the later file wins",
    "Request \"GET\" maps to users/get.test.js, already used by \"get\"; the later file wins"]

/-- Of three requests that share a file the second and the third are reported, each with the one
before it. -/
theorem shared_file_reported :
    ∃ outcome, (build .ample memory {} sharedFile .null "out" {}).result = .ok outcome ∧
      sharedFileMessages <:+ outcome.warnings.map Warning.message := by
  have hc : (checkCollection sharedFile).ok = true := by decide +kernel
  have he : (checkEnvironment .null).ok = true := by decide +kernel
  have ho : (outline .ample {} sharedFile .null (FilePath.parse "out")).obstacle = none := by
    decide +kernel
  have hmessages : (planOf {} sharedFile).collisions.map Layout.Collision.message =
      sharedFileMessages := by decide +kernel
  have hresult := congrArg Execution.result ((prepared_ample hc he).build_memory ho {})
  have hsuffix := overwrites_reported.2 .ample memory {} sharedFile .null "out" {} _ hresult
  rw [hmessages] at hsuffix
  exact ⟨_, hresult, hsuffix⟩

end RequestSuite
